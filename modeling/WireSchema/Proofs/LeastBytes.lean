import WireSchema.Proofs.Decoding
import WireSchema.Proofs.Encoding
import WireSchema.Proofs.Refusal

/-! No value takes fewer bytes than `minimumSize`, wherever it begins. -/

namespace WireSchema

/-- After the writer `w` comes `after`, with a block more in the buffer, or only counted. -/
def Writer.Gains (w after : Writer) (block : List UInt8) : Prop :=
  match w.sink with
  | .measure => w.position + block.length < wordLimit ∧
    after = ⟨.measure, w.position + block.length⟩
  | .buffer bytes => w.position + block.length ≤ bytes.length ∧
    after = ⟨.buffer (overwrite bytes w.position block), w.position + block.length⟩

def Writer.Placed (w : Writer) : Prop :=
  match w.sink with
  | .measure => w.position < wordLimit
  | .buffer bytes => w.position ≤ bytes.length

theorem run_gains {items : List WireItem} {w after : Writer} (placed : w.Placed)
    (ran : encodeEach WireItem.write items w = .ok () after) :
    (∀ item ∈ items, item.Encodable) ∧
      w.Gains after (layoutEach WireItem.layout w.position items) := by
  have encodable := encodable_of_run ran
  refine ⟨encodable, ?_⟩
  rcases w with ⟨_ | bytes, position⟩
  · by_cases short : position + (layoutEach WireItem.layout position items).length < wordLimit
    · rw [run_measuring_of_lt encodable short] at ran
      cases ran
      exact ⟨short, rfl⟩
    · obtain ⟨_, panicked⟩ := run_measuring_of_le encodable placed (Nat.le_of_not_lt short)
      rw [panicked] at ran
      cases ran
  · by_cases fits :
        position + (layoutEach WireItem.layout position items).length ≤ bytes.length
    · rw [run_of_le encodable fits] at ran
      cases ran
      exact ⟨fits, rfl⟩
    · obtain ⟨_, _, _, _, _, _, _, _, stopped⟩ :=
        run_of_lt encodable placed (Nat.lt_of_not_le fits)
      rw [stopped] at ran
      cases ran

section Least

variable {type : WireType}

/-- A success has written the layout, where the writer stood. -/
theorem WireType.encode_gains {value : type.Value} {w after : Writer} (placed : w.Placed)
    (ran : type.encode value w = .ok () after) :
    type.Encodable (type.content value) ∧
      w.Gains after (type.layout w.position (type.content value)) := by
  rw [type.encode_eq_items] at ran
  rw [type.layout_eq_layoutEach]
  exact run_gains placed ran

theorem WireType.minimumSize_le_layout {content : type.Content}
    (encodable : type.Encodable content) (offset : Nat) :
    type.minimumSize ≤ (type.layout offset content).length :=
  type.minimumSize_le (type.denotes_layout offset content encodable)

theorem WireType.decodeInto_takes {target : type.Value} {r : Reader}
    (done : (type.decodeInto target r).result = .ok ()) :
    r.Takes (type.decodeInto target r).reader fun offset block =>
      type.Denotes offset block (type.content (type.decodeInto target r).target) :=
  (type.decodes.yields.mp ⟨done, rfl, rfl⟩).1

/-- Elements that were all read took their least size each. -/
theorem mul_minimumSize_le {slots : List type.Value} {r : Reader}
    (filled : (fillEach type.decodeInto slots r).result = .ok ()) :
    slots.length * type.minimumSize ≤ r.unread.length := by
  obtain ⟨length, ⟨block, parts, -, each⟩, -⟩ :=
    (fillEach_yields type.decodes).mp ⟨filled, rfl, rfl⟩
  have least := mul_le_of_denotesEach type.minimumSize_le each
  rw [length] at least
  rw [parts, List.length_append]
  exact Nat.le_add_right_of_le least

end Least

/-- No success reads or writes fewer bytes than `minimumSize`, and no sequence that is refused
because so many elements cannot fit could have been read element by element. -/
theorem WireType.minimumSize_is_least (type : WireType) :
    (∀ (target : type.Value) (r : Reader), (type.decodeInto target r).result = .ok () →
      r.Takes (type.decodeInto target r).reader fun _ block =>
        type.minimumSize ≤ block.length) ∧
    (∀ (value : type.Value) (w after : Writer), w.Placed →
      type.encode value w = .ok () after →
        w.Gains after (type.layout w.position (type.content value)) ∧
        type.minimumSize ≤ (type.layout w.position (type.content value)).length) ∧
    ∀ (r middle : Reader) (n : Nat), Reader.word r = .ok n middle →
      middle.unread.length < countNeeded n type.minimumSize →
        Reader.count type.minimumSize r =
          .error (.decodeUnderflow r.position (countNeeded n type.minimumSize)
            middle.unread.length) middle ∧
        ∀ slots : List type.Value, slots.length = n →
          (fillEach type.decodeInto slots middle).result ≠ .ok () := by
  refine ⟨?_, ?_, ?_⟩
  · intro target r done
    obtain ⟨block, parts, place, denotes⟩ := type.decodeInto_takes done
    exact ⟨block, parts, place, type.minimumSize_le denotes⟩
  · intro value w after placed ran
    obtain ⟨encodable, gains⟩ := type.encode_gains placed ran
    exact ⟨gains, type.minimumSize_le_layout encodable w.position⟩
  · intro r middle n counted few
    refine ⟨Reader.count_eq_error.mpr (.inr ⟨n, counted, few, rfl⟩), ?_⟩
    rintro slots rfl filled
    have least := mul_minimumSize_le filled
    have word := Nat.min_le_left (slots.length * type.minimumSize) (wordLimit - 1)
    exact absurd few (Nat.not_lt.mpr (word.trans least))

def noteType : WireType :=
  .record "Note" .message (.cons "flag" (.scalar .bool) (.cons "text" .string .nil))

def shortNote : noteType.Value := (true, "", ())

def crowdedNotes : Reader := .ofBytes [2, 0, 0, 0, 1, 0, 0, 0, 0, 1, 0, 0, 0]

theorem minimumSize_is_least_note :
    noteType.minimumSize = 5 ∧
    (noteType.decodeInto (false, "x", ()) ⟨3, [1, 0, 0, 0, 0]⟩).result = .ok () ∧
    Reader.Takes ⟨3, [1, 0, 0, 0, 0]⟩
      (noteType.decodeInto (false, "x", ()) ⟨3, [1, 0, 0, 0, 0]⟩).reader
      (fun _ block => 5 ≤ block.length) ∧
    (∃ after, noteType.encode shortNote ⟨.buffer (zeros 9), 3⟩ = .ok () after ∧
      Writer.Gains ⟨.buffer (zeros 9), 3⟩ after
        (noteType.layout 3 (noteType.content shortNote))) ∧
    Reader.count 5 crowdedNotes =
      .error (.decodeUnderflow 0 10 9) ⟨4, [1, 0, 0, 0, 0, 1, 0, 0, 0]⟩ ∧
    ∀ slots : List noteType.Value, slots.length = 2 →
      (fillEach noteType.decodeInto slots ⟨4, [1, 0, 0, 0, 0, 1, 0, 0, 0]⟩).result ≠ .ok () := by
  obtain ⟨read, written, refused⟩ := noteType.minimumSize_is_least
  have done : (noteType.decodeInto (false, "x", ()) ⟨3, [1, 0, 0, 0, 0]⟩).result = .ok () := by
    decide +kernel
  have placed : Writer.Placed ⟨.buffer (zeros 9), 3⟩ := by
    show 3 ≤ (zeros 9).length
    decide
  have counted : Reader.word crowdedNotes = .ok 2 ⟨4, [1, 0, 0, 0, 0, 1, 0, 0, 0]⟩ := rfl
  obtain ⟨failed, unread⟩ := refused _ _ _ counted (by decide)
  have encodable : noteType.Encodable (noteType.content shortNote) := by
    decide +kernel
  have room : 3 + (layoutEach WireItem.layout 3
      (noteType.items (noteType.content shortNote))).length ≤ (zeros 9).length := by
    decide +kernel
  have ran := run_of_le encodable room
  rw [← noteType.encode_eq_items] at ran
  exact ⟨rfl, done, read _ _ done, ⟨_, ran, (written _ _ _ placed ran).1⟩, failed, unread⟩

end WireSchema
