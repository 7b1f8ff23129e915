import WireSchema.Proofs.Guarding

/-! A call changes nothing outside the place it is meant for, and nothing if it fails. -/

namespace WireSchema
namespace WriterOperation

variable {operation : WriterOperation} {marks : List SequenceMark} {bytes : List UInt8}
  {position : Nat}

/-- `after` has `piece` from `start` on and is otherwise what `bytes` is. -/
structure Patched (bytes : List UInt8) (start : Nat) (piece after : List UInt8) : Prop where
  length : after.length = bytes.length
  inside : ∀ place < piece.length, after[start + place]? = piece[place]?
  outside : ∀ place, place < start ∨ start + piece.length ≤ place → after[place]? = bytes[place]?

theorem patched_overwrite {start : Nat} {piece : List UInt8}
    (fits : start + piece.length ≤ bytes.length) :
    Patched bytes start piece (overwrite bytes start piece) where
  length := length_overwrite bytes piece fits
  inside _ within := getElem?_overwrite_of_lt fits within
  outside _ apart := getElem?_overwrite_of_outside fits apart

def Appends (operation : WriterOperation) (position pad : Nat) (piece : List UInt8) : Prop :=
  ∃ alignment, operation.piece? = some (alignment, piece) ∧
    IsLeast {n | alignment ∣ position + n} pad

inductive Refused (operation : WriterOperation) (marks : List SequenceMark)
    (capacity position : Nat) : CodecError → Prop
  | value {fault : Fault} (refused : operation.fault? marks = some fault) :
    Refused operation marks capacity position (.invalidData fault)
  | long {pad : Nat} {piece : List UInt8} (appends : operation.Appends position pad piece)
      (long : wordLimit ≤ pad + piece.length) :
    Refused operation marks capacity position (.invalidData .lengthOverflow)
  | full {pad : Nat} {piece : List UInt8} (appends : operation.Appends position pad piece)
      (full : capacity < position + (pad + piece.length)) :
    Refused operation marks capacity position
      (.encodeOverflow position (pad + piece.length) capacity)
  | foreign {mark elements : Nat} {found : SequenceMark}
      (finishes : operation = .finishSequence mark elements) (known : marks[mark]? = some found)
      (above : position < found.offset + 4) :
    Refused operation marks capacity position (.invalidData .foreignMark)

/-- The outcomes a call may have, each with all that it changes. -/
inductive Confined (operation : WriterOperation) (marks : List SequenceMark) (bytes : List UInt8)
    (position : Nat) : WriterOutcome × Writer → Prop
  | failed {e : CodecError} (reason : operation.Refused marks bytes.length position e) :
    Confined operation marks bytes position
      (⟨.error e, position, marks⟩, ⟨.buffer bytes, position⟩)
  | appended {pad : Nat} {piece after : List UInt8} (appends : operation.Appends position pad piece)
      (fits : position + (pad + piece.length) ≤ bytes.length)
      (written : Patched bytes position (zeros pad ++ piece) after) :
    Confined operation marks bytes position
      (⟨.ok (), position + (pad + piece.length), operation.marksWith marks (position + pad)⟩,
        ⟨.buffer after, position + (pad + piece.length)⟩)
  | filled {mark elements : Nat} {found : SequenceMark} {after : List UInt8}
      (finishes : operation = .finishSequence mark elements) (known : marks[mark]? = some found)
      (below : found.offset + 4 ≤ position) (small : elements < halfWordLimit)
      (written : Patched bytes found.offset (littleEndian 4 elements) after) :
    Confined operation marks bytes position
      (⟨.ok (), position, marks⟩, ⟨.buffer after, position⟩)
  | idle {mark elements : Nat} (finishes : operation = .finishSequence mark elements)
      (unknown : marks[mark]? = none) :
    Confined operation marks bytes position
      (⟨.ok (), position, marks⟩, ⟨.buffer bytes, position⟩)

theorem appends_of_piece? {alignment : Nat} {piece : List UInt8} (regular : operation.Aligned)
    (appends : operation.piece? = some (alignment, piece)) (position : Nat) :
    operation.Appends position (gap position alignment) piece := by
  have positive := Nat.pos_of_isPowerOfTwo (alignment_of_piece? regular appends).1
  exact ⟨alignment, appends, isLeast_gap position positive⟩

/-- An append checks for room before it changes anything. -/
theorem confined_append {alignment : Nat} {piece : List UInt8} (regular : operation.Aligned)
    (appends : operation.piece? = some (alignment, piece)) (inside : position ≤ bytes.length)
    (short : bytes.length < 2 ^ 63) :
    Confined operation marks bytes position
      (operation.call marks ⟨.buffer bytes, position⟩) := by
  have least := appends_of_piece? regular appends position
  obtain ⟨power, small⟩ := alignment_of_piece? regular appends
  have raised := raised_lt_of_lt power small (inside.trans_lt short)
  by_cases long : wordLimit ≤ gap position alignment + piece.length
  · rw [call, perform_buffer_eq_reserve regular appends raised,
      bind_of_error (Writer.reserve_of_overflow power long)]
    exact .failed (.long least long)
  by_cases fits : position + (gap position alignment + piece.length) ≤ bytes.length
  · have ends := stop_of_piece? appends position
    have room : position + (aligned alignment position piece).length ≤ bytes.length := by
      rw [length_aligned]
      exact fits
    have low : operation.stop position < wordLimit :=
      (ends.trans_le fits).trans_lt (short.trans (by decide))
    rw [call, perform_of_piece?_of_le regular low appends (ends.trans_le fits), ends]
    exact .appended least fits (patched_overwrite room)
  · have refused := Writer.reserve_of_lt power (Nat.lt_of_not_le long) inside
      (Nat.lt_of_not_le fits)
    rw [call, perform_buffer_eq_reserve regular appends raised, bind_of_error refused]
    exact .failed (.full least (Nat.lt_of_not_le fits))

/-- A count is filled in below the position or not at all. -/
theorem confined_finish {mark elements : Nat}
    (bounded : marks[mark]?.isSome → elements < halfWordLimit) (inside : position ≤ bytes.length) :
    Confined (.finishSequence mark elements) marks bytes position
      (call (.finishSequence mark elements) marks ⟨.buffer bytes, position⟩) := by
  cases known : marks[mark]? with
  | none =>
    simp only [call, perform, known]
    exact .idle rfl known
  | some found =>
    have small := bounded (by rw [known]; rfl)
    by_cases below : found.offset + 4 ≤ position
    · have room : found.offset + (littleEndian 4 elements).length ≤ bytes.length := by
        rw [length_littleEndian]
        exact below.trans inside
      simp only [call, perform, known, bind_of_ok (Writer.finishSequence_of_le small below)]
      exact .filled rfl known below small (patched_overwrite room)
    · have above := Nat.lt_of_not_le below
      simp only [call, perform, known, bind_of_error (Writer.finishSequence_of_lt small above)]
      exact .failed (.foreign rfl known above)

theorem confined_call (regular : operation.Aligned) (inside : position ≤ bytes.length)
    (short : bytes.length < 2 ^ 63) (marks : List SequenceMark) :
    Confined operation marks bytes position
      (operation.call marks ⟨.buffer bytes, position⟩) := by
  cases refused : operation.fault? marks with
  | some fault =>
    rw [call_of_fault? refused]
    exact .failed (.value refused)
  | none =>
    cases appends : operation.piece? with
    | some pair => exact confined_append regular appends inside short
    | none =>
      obtain ⟨mark, elements, rfl, bounded⟩ := finishes_of_plain refused appends
      exact confined_finish bounded inside

/-- The position moves on inside the buffer, whose length stays. -/
theorem Confined.inside {result : WriterOutcome × Writer}
    (confined : Confined operation marks bytes position result) (inside : position ≤ bytes.length) :
    ∃ after next, result.2 = ⟨.buffer after, next⟩ ∧ after.length = bytes.length ∧
      position ≤ next ∧ next ≤ bytes.length := by
  cases confined with
  | failed reason => exact ⟨bytes, position, rfl, rfl, Nat.le_refl _, inside⟩
  | appended appends fits written =>
    exact ⟨_, _, rfl, written.length, Nat.le_add_right _ _, fits⟩
  | filled finishes known below small written =>
    exact ⟨_, position, rfl, written.length, Nat.le_refl _, inside⟩
  | idle finishes unknown => exact ⟨bytes, position, rfl, rfl, Nat.le_refl _, inside⟩

theorem Confined.perform_ne_panic
    (confined : Confined operation marks bytes position
      (operation.call marks ⟨.buffer bytes, position⟩)) (w : Writer) :
    operation.perform marks ⟨.buffer bytes, position⟩ ≠ .error .panic w := by
  intro panicked
  rw [call, panicked] at confined
  cases confined

def left : List WriterOperation → List SequenceMark → Writer → List SequenceMark × Writer
  | [], marks, w => (marks, w)
  | operation :: rest, marks, w =>
    let (outcome, w) := operation.call marks w
    left rest outcome.marks w

theorem left_inside {operations : List WriterOperation}
    (regular : ∀ operation ∈ operations, operation.Aligned) (inside : position ≤ bytes.length)
    (short : bytes.length < 2 ^ 63) (marks : List SequenceMark) :
    ∃ known after next, left operations marks ⟨.buffer bytes, position⟩ =
        (known, ⟨.buffer after, next⟩) ∧
      after.length = bytes.length ∧ position ≤ next ∧ next ≤ bytes.length := by
  -- What is carried along is only that the position is inside; the marks may be any.
  induction operations generalizing marks bytes position with
  | nil => exact ⟨marks, bytes, position, rfl, rfl, Nat.le_refl _, inside⟩
  | cons operation rest ih =>
    obtain ⟨regularHere, regularRest⟩ := List.forall_mem_cons.mp regular
    have confined := confined_call regularHere inside short marks
    obtain ⟨middle, reached, same, kept, moved, room⟩ := confined.inside inside
    obtain ⟨known, after, next, ran, length, later, within⟩ :=
      ih regularRest (room.trans_eq kept.symm) (kept.trans_lt short)
        (operation.call marks ⟨.buffer bytes, position⟩).1.marks
    refine ⟨known, after, next, ?_, length.trans kept, moved.trans later, within.trans_eq kept⟩
    rw [left, ← ran, ← same]

/-- At any point of any run over a buffer the next call is confined, moves the position on inside
the buffer, and fails no check. The marks of the run come behind some that are not its own. -/
theorem calls_confined (buffer : List UInt8) (small : buffer.length < 2 ^ 63)
    (before : List WriterOperation) (operation : WriterOperation)
    (regular : ∀ other ∈ operation :: before, other.Aligned) (foreign : List SequenceMark) :
    ∃ known bytes position next after,
      left before foreign (.ofBuffer buffer) = (known, ⟨.buffer bytes, position⟩) ∧
      (operation.call known ⟨.buffer bytes, position⟩).2 = ⟨.buffer after, next⟩ ∧
      bytes.length = buffer.length ∧ after.length = buffer.length ∧
      position ≤ next ∧ next ≤ buffer.length ∧
      Confined operation known bytes position (operation.call known ⟨.buffer bytes, position⟩) ∧
      operation.guarded known ⟨.buffer bytes, position⟩ =
        operation.perform known ⟨.buffer bytes, position⟩ ∧
      ∀ w, operation.guarded known ⟨.buffer bytes, position⟩ ≠ .error .panic w := by
  obtain ⟨regularHere, regularBefore⟩ := List.forall_mem_cons.mp regular
  obtain ⟨known, bytes, position, ran, same, -, within⟩ :=
    left_inside regularBefore (Nat.zero_le _) small foreign
  have inside : position ≤ bytes.length := within.trans_eq same.symm
  have short : bytes.length < 2 ^ 63 := same.trans_lt small
  have confined := confined_call regularHere inside short known
  have checked := guarded_eq_perform regularHere inside short known
  obtain ⟨after, next, called, kept, moved, room⟩ := confined.inside inside
  exact ⟨known, bytes, position, next, after, ran, called, same, kept.trans same, moved,
    room.trans_eq same, confined, checked, fun w => checked ▸ confined.perform_ne_panic w⟩

/-- The run is given a mark at the very end of memory, which it takes for its first; its own mark
is the second. The buffer is full when the count is filled in. -/
theorem calls_confined_sample :
    (List.replicate 18 (255 : UInt8)).length < 2 ^ 63 ∧
    (∀ other ∈ .finishSequence 1 1 :: sampleOperations, other.Aligned) ∧
    (trace sampleOperations [⟨wordLimit - 4⟩] (.ofBuffer (.replicate 18 255)))[3]? =
      some ⟨.error (.invalidData .foreignMark), 15, [⟨wordLimit - 4⟩, ⟨4⟩]⟩ ∧
    ∃ bytes after, left sampleOperations [⟨wordLimit - 4⟩] (.ofBuffer (.replicate 18 255)) =
        ([⟨wordLimit - 4⟩, ⟨4⟩], ⟨.buffer bytes, 18⟩) ∧
      (call (.finishSequence 1 1) [⟨wordLimit - 4⟩, ⟨4⟩] ⟨.buffer bytes, 18⟩).2 =
        ⟨.buffer after, 18⟩ ∧
      Confined (.finishSequence 1 1) [⟨wordLimit - 4⟩, ⟨4⟩] bytes 18
        (call (.finishSequence 1 1) [⟨wordLimit - 4⟩, ⟨4⟩] ⟨.buffer bytes, 18⟩) := by
  have small : (List.replicate 18 (255 : UInt8)).length < 2 ^ 63 := by decide
  have regular : ∀ other ∈ .finishSequence 1 1 :: sampleOperations, other.Aligned := by
    simp only [sampleOperations, List.forall_mem_cons, Aligned, true_and, List.not_mem_nil,
      false_imp_iff, implies_true, and_true]
    exact ⟨⟨3, rfl⟩, by decide⟩
  have reached :
      (left sampleOperations [⟨wordLimit - 4⟩] (.ofBuffer (.replicate 18 255))).1 =
        [⟨wordLimit - 4⟩, ⟨4⟩] ∧
      (left sampleOperations [⟨wordLimit - 4⟩] (.ofBuffer (.replicate 18 255))).2.position =
        18 := by
    decide +kernel
  obtain ⟨known, bytes, position, next, after, ran, called, -, -, moved, room, confined, -⟩ :=
    calls_confined (.replicate 18 255) small sampleOperations (.finishSequence 1 1) regular
      [⟨wordLimit - 4⟩]
  rw [ran] at reached
  obtain ⟨rfl, rfl⟩ := reached
  have full : next = 18 := Nat.le_antisymm room moved
  rw [full] at called
  exact ⟨small, regular, by decide +kernel, bytes, after, ran, called, confined⟩

end WriterOperation
end WireSchema
