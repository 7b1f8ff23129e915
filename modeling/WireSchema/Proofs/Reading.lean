import WireSchema.Proofs.Denotation
import WireSchema.Proofs.Step

/-! Each read succeeds exactly on the blocks that denote something, and takes the block. -/

namespace WireSchema

section Takes

variable {before after : Reader}

/-- From `before` to `after` one block is taken, and it means what it should where it stands. -/
def Reader.Takes (before after : Reader) (meaning : Nat → List UInt8 → Prop) : Prop :=
  ∃ block, before.unread = block ++ after.unread ∧
    after.position = before.position + block.length ∧ meaning before.position block

theorem Reader.takes_append (first second : Nat → List UInt8 → Prop) :
    before.Takes after (fun position block => ∃ head tail, block = head ++ tail ∧
        first position head ∧ second (position + head.length) tail) ↔
      ∃ middle, before.Takes middle first ∧ middle.Takes after second := by
  constructor
  · intro taken
    rcases taken with ⟨_, parts, place, head, tail, rfl, meansFirst, meansSecond⟩
    rw [List.append_assoc] at parts
    rw [List.length_append, ← Nat.add_assoc] at place
    exact ⟨⟨before.position + head.length, tail ++ after.unread⟩,
      ⟨head, parts, rfl, meansFirst⟩, ⟨tail, rfl, place, meansSecond⟩⟩
  · intro taken
    rcases taken with ⟨middle, ⟨head, parts, place, meansFirst⟩, tail, parts', place', meansSecond⟩
    rw [parts'] at parts
    rw [place] at place' meansSecond
    refine ⟨head ++ tail, ?_, ?_, head, tail, rfl, meansFirst, meansSecond⟩
    · rw [List.append_assoc]
      exact parts
    · rw [List.length_append, ← Nat.add_assoc]
      exact place'

theorem Reader.takes_nil {same : Prop} :
    before.Takes after (fun _ block => block = [] ∧ same) ↔ before = after ∧ same := by
  constructor
  · intro taken
    rcases taken with ⟨_, parts, place, rfl, holds⟩
    cases before
    cases after
    cases parts
    cases place
    exact ⟨rfl, holds⟩
  · intro still
    rcases still with ⟨rfl, holds⟩
    exact ⟨[], rfl, rfl, rfl, holds⟩

end Takes

/-- A read that takes a block and answers what the block denotes, whenever there is one. -/
structure Reads {α : Type} (read : Read α) (denotes : Nat → List UInt8 → α → Prop) : Prop where
  eq_ok : ∀ {before after : Reader} {value : α}, read before = .ok value after ↔
    before.Takes after fun position block => denotes position block value

namespace Reads

variable {α β : Type} {denotes denotes' : Nat → List UInt8 → α → Prop}

theorem of_iff {read : Read α} (reads : Reads read denotes)
    (same : ∀ position block value, denotes position block value ↔ denotes' position block value) :
    Reads read denotes' := by
  constructor
  intro before after value
  simp only [reads.eq_ok, same]

theorem pure (value : α) :
    Reads (Pure.pure value) fun _ block answer => block = [] ∧ value = answer := by
  constructor
  intro before after answer
  rw [Reader.takes_nil]
  constructor
  · intro done
    cases done
    exact ⟨rfl, rfl⟩
  · intro done
    rcases done with ⟨rfl, rfl⟩
    rfl

theorem throw (e : CodecError) :
    Reads (MonadExcept.throw e : Read α) fun _ _ _ => False := by
  constructor
  intro before after answer
  constructor
  · intro done
    cases done
  · intro taken
    rcases taken with ⟨_, _, _, impossible⟩
    exact impossible.elim

/-- What comes next may rely on the value read first being one that some block denotes. -/
theorem bind {read : Read α} {next : α → Read β} {further : α → Nat → List UInt8 → β → Prop}
    (first : Reads read denotes)
    (second : ∀ {position block value}, denotes position block value →
      Reads (next value) (further value)) :
    Reads (read >>= next) fun position block answer => ∃ value head tail, block = head ++ tail ∧
      denotes position head value ∧ further value (position + head.length) tail answer := by
  constructor
  intro before after answer
  rw [bind_eq_ok]
  constructor
  · intro ran
    rcases ran with ⟨value, middle, ran, ranNext⟩
    have head := first.eq_ok.mp ran
    have ⟨_, _, _, meaning⟩ := head
    have tail := (second meaning).eq_ok.mp ranNext
    obtain ⟨block, parts, place, both⟩ :=
      (Reader.takes_append (denotes · · value) (further value · · answer)).mpr ⟨middle, head, tail⟩
    exact ⟨block, parts, place, value, both⟩
  · intro taken
    rcases taken with ⟨block, parts, place, value, both⟩
    obtain ⟨middle, head, tail⟩ :=
      (Reader.takes_append (denotes · · value) (further value · · answer)).mp
        ⟨block, parts, place, both⟩
    have ⟨_, _, _, meaning⟩ := head
    exact ⟨value, middle, first.eq_ok.mpr head, (second meaning).eq_ok.mpr tail⟩

end Reads

namespace Reader

theorem reads_take {alignment size : Nat} (power : alignment.isPowerOfTwo)
    (small : alignment + size < wordLimit) :
    Reads (take alignment size) fun position block bytes =>
      ∃ pad, block = pad ++ bytes ∧ pad.length = gap position alignment ∧ bytes.length = size := by
  constructor
  intro before after bytes
  rcases before with ⟨position, unread⟩
  have pad_lt := gap_lt position (Nat.pos_of_isPowerOfTwo power)
  have needed : min (gap position alignment + size) (wordLimit - 1) =
      gap position alignment + size := Nat.min_eq_left (by omega)
  simp only [take, paddingAt_eq_gap _ power, needed, remaining]
  constructor
  · intro taken
    split at taken
    · cases taken
    · rename_i enough
      cases taken
      refine ⟨unread.take (gap position alignment + size), ?_, ?_,
        unread.take (gap position alignment), List.take_add, ?_, ?_⟩
      · exact (List.take_append_drop _ _).symm
      · simp only [List.length_take]
        omega
      · simp only [List.length_take]
        omega
      · rw [List.length_take, List.length_drop]
        omega
  · intro taken
    rcases taken with ⟨_, parts, place, pad, rfl, padLength, rfl⟩
    rcases after with ⟨place', rest⟩
    simp only at parts place
    rw [parts, place, ← padLength, if_neg]
    · simp [List.append_assoc, Nat.add_assoc]
    · simp only [List.length_append]
      omega

theorem reads_padded {width : Nat} (power : width.isPowerOfTwo) (small : width ≤ 8) :
    Reads (take width width) (Padded width) := by
  have limit : 16 < wordLimit := by decide
  exact reads_take power (by omega)

theorem reads_scalar (kind : Scalar) : Reads (scalar kind) (DenotesScalar kind) := by
  have bytes := reads_padded kind.width_isPowerOfTwo kind.width_le
  apply (bytes.bind fun {_ _ word} _ => Reads.pure (kind.ofBytes word)).of_iff
  intro position block value
  constructor
  · intro read
    rcases read with ⟨word, _, _, rfl, padded, rfl, rfl⟩
    have ⟨_, _, _, width⟩ := padded
    rw [List.append_nil]
    exact ⟨word, padded, (Scalar.denotes_iff width _).mpr rfl⟩
  · intro denoted
    rcases denoted with ⟨word, padded, meaning⟩
    have ⟨_, _, _, width⟩ := padded
    exact ⟨word, block, [], (List.append_nil _).symm, padded, rfl,
      (Scalar.denotes_iff width _).mp meaning⟩

theorem reads_word : Reads word DenotesNumber := by
  have bytes : Reads (take 4 4) (Padded 4) := reads_padded ⟨2, rfl⟩ (by decide)
  apply (bytes.bind fun {_ _ word} _ => Reads.pure (ofLittleEndian word)).of_iff
  intro position block n
  constructor
  · intro read
    rcases read with ⟨word, _, _, rfl, padded, rfl, rfl⟩
    rw [List.append_nil]
    exact ⟨word, padded, rfl⟩
  · intro denoted
    rcases denoted with ⟨word, padded, rfl⟩
    exact ⟨word, block, [], (List.append_nil _).symm, padded, rfl, rfl⟩

def terminated (bytes : List UInt8) : Read String :=
  if bytes.getLast? = some 0 then
    match utf8? bytes.dropLast with
    | some text => pure text
    | none => throw (.invalidData .invalidUtf8)
  else throw (.invalidData .unterminatedString)

theorem string_eq :
    string = (do
      let length ← word
      if length = 0 then pure "" else take 1 length >>= terminated) := by
  have body : terminated = fun bytes => (do
      if bytes.getLast? != some 0 then throw (.invalidData .unterminatedString)
      match utf8? bytes.dropLast with
      | some text => pure text
      | none => throw (.invalidData .invalidUtf8)) := by
    funext bytes
    by_cases ends : bytes.getLast? = some 0
    · simp [terminated, ends]
    · have differs : (bytes.getLast? != some 0) = true := bne_iff_ne.mpr ends
      simp only [terminated, if_neg ends, if_pos differs]
      rfl
  rw [body]
  rfl

theorem reads_terminated (bytes : List UInt8) :
    Reads (terminated bytes) fun _ block text =>
      block = [] ∧ bytes = text.toUTF8.toList ++ [0] := by
  by_cases ends : bytes.getLast? = some 0
  · have split : bytes.dropLast ++ [0] = bytes := List.dropLast_append_getLast? 0 ends
    rw [terminated, if_pos ends]
    cases found : utf8? bytes.dropLast with
    | some text =>
      rw [utf8?_eq_some] at found
      apply (Reads.pure text).of_iff
      intro _ block answer
      apply and_congr_right
      intro _
      rw [← split, ← found, List.append_cancel_right_eq]
      exact ⟨fun same => same ▸ rfl, toUTF8_toList_inj⟩
    | none =>
      apply (Reads.throw _).of_iff
      intro _ block answer
      refine ⟨False.elim, fun denoted => ?_⟩
      rw [denoted.2, List.dropLast_concat, utf8?_eq_some.mpr rfl] at found
      cases found
  · rw [terminated, if_neg ends]
    apply (Reads.throw _).of_iff
    intro _ block answer
    refine ⟨False.elim, fun denoted => ends ?_⟩
    rw [denoted.2]
    exact List.getLast?_concat

theorem reads_body {length : Nat} (small : length < halfWordLimit) :
    Reads (if length = 0 then pure "" else take 1 length >>= terminated) fun _ body text =>
      (length = 0 ∧ body = [] ∧ text = "") ∨
        (length = text.toUTF8.toList.length + 1 ∧ body = text.toUTF8.toList ++ [0]) := by
  by_cases empty : length = 0
  · rw [if_pos empty]
    apply (Reads.pure "").of_iff
    intro _ body text
    constructor
    · intro read
      exact .inl ⟨empty, read.1, read.2.symm⟩
    · intro denoted
      rcases denoted with ⟨_, zero, same⟩ | ⟨more, _⟩
      · exact ⟨zero, same.symm⟩
      · omega
  · have limit : 1 + halfWordLimit < wordLimit := by decide
    have bytes : Reads (take 1 length) _ := reads_take ⟨0, rfl⟩ (by omega)
    rw [if_neg empty]
    apply (bytes.bind fun {_ _ word} _ => reads_terminated word).of_iff
    intro position body text
    constructor
    · intro read
      rcases read with ⟨_, _, _, rfl, ⟨pad, rfl, padLength, rfl⟩, rfl, rfl⟩
      rw [gap_one, List.length_eq_zero_iff] at padLength
      subst padLength
      exact .inr ⟨by simp, by simp⟩
    · intro denoted
      rcases denoted with ⟨zero, _⟩ | ⟨rfl, rfl⟩
      · exact (empty zero).elim
      · exact ⟨_, _, [], (List.append_nil _).symm, ⟨[], rfl, (gap_one _).symm, by simp⟩, rfl, rfl⟩

theorem reads_string : Reads string DenotesString := by
  rw [string_eq]
  apply (reads_word.bind fun number => reads_body (lt_of_denotesNumber number)).of_iff
  intro position block text
  constructor
  · intro read
    rcases read with ⟨_, head, tail, rfl, number, body⟩
    rcases body with ⟨rfl, rfl, rfl⟩ | ⟨rfl, rfl⟩
    · exact ⟨head, [], rfl, .inl ⟨number, rfl, rfl⟩⟩
    · exact ⟨head, _, rfl, .inr ⟨number, rfl⟩⟩
  · intro denoted
    rcases denoted with ⟨head, tail, rfl, body⟩
    rcases body with ⟨number, rfl, rfl⟩ | ⟨number, rfl⟩
    · exact ⟨_, head, [], rfl, number, .inl ⟨rfl, rfl, rfl⟩⟩
    · exact ⟨_, head, _, rfl, number, .inr ⟨rfl, rfl⟩⟩

/-- A count is a number that passes the early check against the bytes behind it. -/
theorem count_eq_ok {minSize n : Nat} {before after : Reader} :
    count minSize before = .ok n after ↔ word before = .ok n after ∧
      min (n * minSize) (wordLimit - 1) ≤ after.unread.length := by
  rw [count, bind_eq_ok]
  constructor
  · intro counted
    rcases counted with ⟨_, _, got, ran⟩
    cases got
    obtain ⟨m, middle, read, ran⟩ := bind_eq_ok.mp ran
    obtain ⟨_, _, got, ran⟩ := bind_eq_ok.mp ran
    cases got
    split at ran
    · cases ran
    · rename_i enough
      cases ran
      exact ⟨read, Nat.le_of_not_lt enough⟩
  · intro passed
    rcases passed with ⟨read, enough⟩
    refine ⟨_, _, rfl, ?_⟩
    have passes : ¬ after.remaining < min (n * minSize) (wordLimit - 1) := Nat.not_lt.mpr enough
    have got : (get : Read Reader) after = .ok after after := rfl
    rw [bind_of_ok read, bind_of_ok got]
    simp only [if_neg passes]
    rfl

end Reader

end WireSchema
