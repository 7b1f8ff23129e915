import WireSchema.Proofs.Reading

/-! A read that is refused for want of bytes takes nothing and says what was there. -/

namespace WireSchema

def CodecError.IsUnderflow (e : CodecError) : Prop :=
  ∃ offset needed remaining, e = .decodeUnderflow offset needed remaining ∧ remaining < needed

def countNeeded (n minSize : Nat) : Nat := min (n * minSize) (wordLimit - 1)

namespace Reader

/-- The bytes left end before a word of `width` bytes and its padding do, and `e` says so. -/
def Short (r : Reader) (width : Nat) (e : CodecError) : Prop :=
  r.unread.length < gap r.position width + width ∧
    e = .decodeUnderflow r.position (gap r.position width + width) r.unread.length

theorem Short.isUnderflow {r : Reader} {width : Nat} {e : CodecError} (short : r.Short width e) :
    e.IsUnderflow :=
  ⟨_, _, _, short.2, short.1⟩

variable {before after : Reader} {e : CodecError}

theorem take_eq_error {alignment size : Nat} (power : alignment.isPowerOfTwo)
    (small : alignment + size < wordLimit) :
    take alignment size before = .error e after ↔
      before.unread.length < gap before.position alignment + size ∧
        e = .decodeUnderflow before.position (gap before.position alignment + size)
          before.unread.length ∧ after = before := by
  have pad_lt := gap_lt before.position (Nat.pos_of_isPowerOfTwo power)
  have needed : min (gap before.position alignment + size) (wordLimit - 1) =
      gap before.position alignment + size := Nat.min_eq_left (by omega)
  simp only [take, paddingAt_eq_gap _ power, needed, remaining]
  constructor
  · intro failed
    split at failed
    · rename_i short
      cases failed
      exact ⟨short, rfl, rfl⟩
    · cases failed
  · intro failed
    rcases failed with ⟨short, rfl, rfl⟩
    rw [if_pos short]

theorem take_width_eq_error {width : Nat} (power : width.isPowerOfTwo) (small : width ≤ 8) :
    take width width before = .error e after ↔ before.Short width e ∧ after = before := by
  have limit : 16 < wordLimit := by decide
  rw [take_eq_error power (by omega), Short, and_assoc]

theorem scalar_eq_error {kind : Scalar} :
    scalar kind before = .error e after ↔ before.Short kind.width e ∧ after = before := by
  rw [scalar, bind_eq_error, take_width_eq_error kind.width_isPowerOfTwo kind.width_le]
  constructor
  · intro failed
    rcases failed with short | ⟨_, _, _, bad⟩
    · exact short
    · cases bad
  · exact .inl

theorem word_eq_error : word before = .error e after ↔ before.Short 4 e ∧ after = before := by
  rw [word, bind_eq_error, take_width_eq_error ⟨2, rfl⟩ (by decide)]
  constructor
  · intro failed
    rcases failed with short | ⟨_, _, _, bad⟩
    · exact short
    · cases bad
  · exact .inl

/-- A count fails if there is no number, or if the bytes behind the number are too few for it. -/
theorem count_eq_error {minSize : Nat} :
    count minSize before = .error e after ↔
      (before.Short 4 e ∧ after = before) ∨
        ∃ n, word before = .ok n after ∧ after.unread.length < countNeeded n minSize ∧
          e = .decodeUnderflow before.position (countNeeded n minSize) after.unread.length := by
  have got (r : Reader) : (get : Read Reader) r = .ok r r := rfl
  rw [count, bind_of_ok (got before), bind_eq_error, word_eq_error]
  apply or_congr_right
  constructor
  · intro failed
    rcases failed with ⟨n, middle, read, failed⟩
    rw [bind_of_ok (got middle)] at failed
    split at failed
    · rename_i few
      cases failed
      exact ⟨n, read, few, rfl⟩
    · cases failed
  · intro failed
    rcases failed with ⟨n, read, few, rfl⟩
    refine ⟨n, after, read, ?_⟩
    have few : after.remaining < min (n * minSize) (wordLimit - 1) := few
    rw [bind_of_ok (got after)]
    simp only [if_pos few]
    rfl

end Reader

end WireSchema
