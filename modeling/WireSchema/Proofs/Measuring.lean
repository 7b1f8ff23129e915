import WireSchema.Proofs.Writing

/-! Runs of writer operations against one arithmetic of positions and marks. -/

namespace WireSchema

namespace Writer

variable {position : Nat} {bytes : List UInt8}

theorem countWord_of_lt {n : Nat} (small : n < halfWordLimit) (w : Writer) :
    countWord n w = .ok (littleEndian 4 n) w := by
  rw [countWord, if_pos small]
  rfl

theorem countWord_of_le {n : Nat} (large : halfWordLimit ≤ n) (w : Writer) :
    countWord n w = .error (.answered (.invalidData .countTooLarge)) w := by
  rw [countWord, if_neg (Nat.not_lt_of_le large)]
  rfl

theorem finishSequence_measuring {elements : Nat} (small : elements < halfWordLimit)
    (mark : SequenceMark) (position : Nat) :
    finishSequence mark elements ⟨.measure, position⟩ = .ok () ⟨.measure, position⟩ := by
  rw [finishSequence, bind_of_ok (countWord_of_lt small _)]
  rfl

theorem finishSequence_of_le {elements : Nat} (small : elements < halfWordLimit)
    {mark : SequenceMark} (below : mark.offset + 4 ≤ position) :
    finishSequence mark elements ⟨.buffer bytes, position⟩ =
      .ok () ⟨.buffer (overwrite bytes mark.offset (littleEndian 4 elements)), position⟩ := by
  rw [finishSequence, bind_of_ok (countWord_of_lt small _)]
  show (if mark.offset + 4 ≤ position then set (store mark.offset _ _) else _ : Write Unit) _ = _
  rw [if_pos below]
  rfl

theorem finishSequence_of_lt {elements : Nat} (small : elements < halfWordLimit)
    {mark : SequenceMark} (above : position < mark.offset + 4) :
    finishSequence mark elements ⟨.buffer bytes, position⟩ =
      .error (.answered (.invalidData .foreignMark)) ⟨.buffer bytes, position⟩ := by
  rw [finishSequence, bind_of_ok (countWord_of_lt small _)]
  show (if mark.offset + 4 ≤ position then set (store mark.offset _ _)
    else fail (.invalidData .foreignMark) : Write Unit) _ = _
  rw [if_neg (Nat.not_le_of_lt above)]
  rfl

end Writer

/-- A call of a writer. A mark is given by its number among those of the run so far; a number that
no mark has yet stands for no call. -/
inductive WriterOperation where
  | scalar (kind : Scalar) (value : kind.Carrier)
  | string (text : String)
  | raw (bytes : List UInt8)
  | count (n : Nat)
  | align (alignment : Nat)
  | beginSequence
  | finishSequence (mark elements : Nat)

/-- What is seen of a writer after a call: how it ended, the position, and all marks so far. -/
structure WriterOutcome where
  result : Ending Unit
  position : Nat
  marks : List SequenceMark
  deriving DecidableEq

namespace WriterOperation

def perform (marks : List SequenceMark) : WriterOperation → Write (List SequenceMark)
  | .scalar kind value => do
    Writer.scalar kind value
    return marks
  | .string text => do
    Writer.string text
    return marks
  | .raw bytes => do
    Writer.raw bytes
    return marks
  | .count n => do
    Writer.count n
    return marks
  | .align alignment => do
    Writer.align alignment
    return marks
  | .beginSequence => do
    return marks ++ [← Writer.beginSequence]
  | .finishSequence mark elements =>
    match marks[mark]? with
    | some mark => do
      Writer.finishSequence mark elements
      return marks
    | none => return marks

def call (operation : WriterOperation) (marks : List SequenceMark) (w : Writer) :
    WriterOutcome × Writer :=
  match operation.perform marks w with
  | .ok marks w => (⟨.ok (), w.position, marks⟩, w)
  | .error halt w => (⟨halt.ending, w.position, marks⟩, w)

/-- The outcomes of calls made one after the other, whether they fail or not; a panic is caught. -/
def trace : List WriterOperation → List SequenceMark → Writer → List WriterOutcome
  | [], _, _ => []
  | operation :: rest, marks, w =>
    let (outcome, w) := operation.call marks w
    outcome :: trace rest outcome.marks w

/-- What a call is refused for by every writer. -/
def fault? (marks : List SequenceMark) : WriterOperation → Option Fault
  | .string text =>
    if text.toUTF8.toList.length + 1 < halfWordLimit then none else some .stringTooLong
  | .count n => if n < halfWordLimit then none else some .countTooLarge
  | .finishSequence mark elements =>
    if marks[mark]?.isSome && halfWordLimit ≤ elements then some .countTooLarge else none
  | _ => none

def piece? : WriterOperation → Option (Nat × List UInt8)
  | .scalar kind value => some (kind.width, kind.bytes value)
  | .string text =>
    if text.toUTF8.toList.length + 1 < halfWordLimit then some (4, stringBytes text) else none
  | .raw bytes => some (1, bytes)
  | .count n => if n < halfWordLimit then some (4, littleEndian 4 n) else none
  | .align alignment => some (alignment, [])
  | .beginSequence => some (4, zeros 4)
  | .finishSequence .. => none

def marksWith (marks : List SequenceMark) (start : Nat) : WriterOperation → List SequenceMark
  | .beginSequence => marks ++ [⟨start⟩]
  | _ => marks

def stop (operation : WriterOperation) (offset : Nat) : Nat :=
  match operation.piece? with
  | some (alignment, bytes) => offset + (aligned alignment offset bytes).length
  | none => offset

def stopAll : List WriterOperation → (offset : Nat) → Nat
  | [], offset => offset
  | operation :: rest, offset => stopAll rest (operation.stop offset)

def expected (operation : WriterOperation) (marks : List SequenceMark) (offset : Nat) :
    WriterOutcome :=
  match operation.fault? marks, operation.piece? with
  | some fault, _ => ⟨.error (.invalidData fault), offset, marks⟩
  | none, some (alignment, _) =>
    ⟨.ok (), operation.stop offset, operation.marksWith marks (offset + gap offset alignment)⟩
  | none, none => ⟨.ok (), offset, marks⟩

/-- Only powers of two that a word can hold are alignments. -/
def Aligned : WriterOperation → Prop
  | .align alignment => alignment.isPowerOfTwo ∧ alignment < wordLimit
  | _ => True

section Step

variable {operation : WriterOperation} {marks : List SequenceMark} {alignment offset : Nat}
  {piece bytes : List UInt8}

theorem alignment_of_piece? (regular : operation.Aligned)
    (appends : operation.piece? = some (alignment, piece)) :
    alignment.isPowerOfTwo ∧ alignment < wordLimit := by
  have four : Nat.isPowerOfTwo 4 ∧ 4 < wordLimit := ⟨⟨2, rfl⟩, by decide⟩
  cases operation with
  | scalar kind value =>
    cases appends
    exact ⟨kind.width_isPowerOfTwo, Nat.lt_of_le_of_lt kind.width_le (by decide)⟩
  | string text =>
    simp only [piece?, Option.ite_none_right_eq_some] at appends
    cases appends.2
    exact four
  | raw bytes =>
    cases appends
    exact ⟨⟨0, rfl⟩, by decide⟩
  | count n =>
    simp only [piece?, Option.ite_none_right_eq_some] at appends
    cases appends.2
    exact four
  | align alignment =>
    cases appends
    exact regular
  | beginSequence =>
    cases appends
    exact four
  | finishSequence mark elements => cases appends

/-- Whatever is appended, room is reserved first and then the bytes are put there. -/
theorem perform_eq_reserve {w : Writer} (appends : operation.piece? = some (alignment, piece))
    (passes : ∀ n, operation = .align n → Writer.align n w = Writer.append n [] w) :
    operation.perform marks w = (do
      let start ← Writer.reserve alignment piece.length
      Writer.place start piece
      return operation.marksWith marks start : Write (List SequenceMark)) w := by
  cases operation with
  | scalar kind value =>
    cases appends
    simp only [perform, Writer.scalar, Writer.append, marksWith, bind_assoc]
  | string text =>
    simp only [piece?, Option.ite_none_right_eq_some] at appends
    obtain ⟨short, same⟩ := appends
    cases same
    simp only [perform, Writer.string, if_pos short, Writer.append, marksWith, bind_assoc]
    rfl
  | raw bytes =>
    cases appends
    simp only [perform, Writer.raw, Writer.append, marksWith, bind_assoc]
  | count n =>
    simp only [piece?, Option.ite_none_right_eq_some] at appends
    obtain ⟨small, same⟩ := appends
    cases same
    simp only [perform, Writer.count, Writer.countWord, if_pos small, Writer.append, marksWith,
      bind_assoc, pure_bind]
  | align alignment =>
    cases appends
    rw [perform, bind_of_eq (passes alignment rfl), Writer.append]
    simp only [marksWith, bind_assoc]
  | beginSequence =>
    cases appends
    simp only [perform, Writer.beginSequence, marksWith, bind_assoc, pure_bind]
    rfl
  | finishSequence mark elements => cases appends

theorem perform_measuring_eq_reserve (appends : operation.piece? = some (alignment, piece)) :
    operation.perform marks ⟨.measure, offset⟩ = (do
      let start ← Writer.reserve alignment piece.length
      Writer.place start piece
      return operation.marksWith marks start : Write (List SequenceMark)) ⟨.measure, offset⟩ :=
  perform_eq_reserve appends fun n _ => Writer.align_measuring n offset

theorem perform_buffer_eq_reserve (regular : operation.Aligned)
    (appends : operation.piece? = some (alignment, piece))
    (short : offset + (alignment - 1) < wordLimit) :
    operation.perform marks ⟨.buffer bytes, offset⟩ = (do
      let start ← Writer.reserve alignment piece.length
      Writer.place start piece
      return operation.marksWith marks start : Write (List SequenceMark))
        ⟨.buffer bytes, offset⟩ := by
  obtain ⟨power, small⟩ := alignment_of_piece? regular appends
  apply perform_eq_reserve appends
  rintro n rfl
  cases appends
  exact Writer.align_of_lt power small short

theorem fault?_of_piece? (appends : operation.piece? = some (alignment, piece)) :
    operation.fault? marks = none := by
  cases operation with
  | string text =>
    simp only [piece?, Option.ite_none_right_eq_some] at appends
    simp only [fault?, if_pos appends.1]
  | count n =>
    simp only [piece?, Option.ite_none_right_eq_some] at appends
    simp only [fault?, if_pos appends.1]
  | finishSequence mark elements => cases appends
  | _ => rfl

theorem piece?_of_fault? {fault : Fault} (refused : operation.fault? marks = some fault) :
    operation.piece? = none := by
  cases appends : operation.piece? with
  | none => rfl
  | some pair =>
    rw [fault?_of_piece? appends] at refused
    cases refused

theorem stop_of_piece? (appends : operation.piece? = some (alignment, piece)) (offset : Nat) :
    operation.stop offset = offset + (gap offset alignment + piece.length) := by
  simp only [stop, appends, length_aligned]

theorem stop_of_piece?_eq_none (plain : operation.piece? = none) (offset : Nat) :
    operation.stop offset = offset := by
  simp only [stop, plain]

theorem le_stop (operation : WriterOperation) (offset : Nat) : offset ≤ operation.stop offset := by
  rw [stop]
  split
  · exact Nat.le_add_right _ _
  · exact Nat.le_refl _

theorem position_expected (operation : WriterOperation) (marks : List SequenceMark)
    (offset : Nat) : (operation.expected marks offset).position = operation.stop offset := by
  cases refused : operation.fault? marks with
  | some fault =>
    have plain := piece?_of_fault? refused
    simp only [expected, refused, stop_of_piece?_eq_none plain]
  | none =>
    cases appends : operation.piece? with
    | none => simp only [expected, refused, appends, stop_of_piece?_eq_none appends]
    | some pair => simp only [expected, refused, appends]

theorem expected_of_piece? (appends : operation.piece? = some (alignment, piece)) :
    operation.expected marks offset =
      ⟨.ok (), operation.stop offset,
        operation.marksWith marks (offset + gap offset alignment)⟩ := by
  simp only [expected, fault?_of_piece? appends, appends]

theorem expected_of_plain (accepted : operation.fault? marks = none)
    (plain : operation.piece? = none) :
    operation.expected marks offset = ⟨.ok (), offset, marks⟩ := by
  simp only [expected, accepted, plain]

theorem perform_of_fault? {fault : Fault} (refused : operation.fault? marks = some fault)
    (w : Writer) : operation.perform marks w = .error (.answered (.invalidData fault)) w := by
  cases operation with
  | string text =>
    simp only [fault?, Option.ite_none_left_eq_some] at refused
    obtain ⟨long, same⟩ := refused
    cases same
    have failed : Writer.string text w = .error (.answered (.invalidData .stringTooLong)) w := by
      simp only [Writer.string, if_neg long]
      rfl
    exact bind_of_error failed
  | count n =>
    simp only [fault?, Option.ite_none_left_eq_some] at refused
    obtain ⟨large, same⟩ := refused
    cases same
    have failed := Writer.countWord_of_le (Nat.le_of_not_lt large) w
    exact bind_of_error (bind_of_error failed)
  | finishSequence mark elements =>
    simp only [fault?, Option.ite_none_right_eq_some, Bool.and_eq_true, decide_eq_true_eq]
      at refused
    obtain ⟨⟨known, large⟩, same⟩ := refused
    cases same
    obtain ⟨found, known⟩ := Option.isSome_iff_exists.mp known
    simp only [perform, known]
    exact bind_of_error (bind_of_error (Writer.countWord_of_le large w))
  | scalar | raw | align | beginSequence => cases refused

def MarksBelow (marks : List SequenceMark) (offset : Nat) : Prop :=
  ∀ mark ∈ marks, mark.offset + 4 ≤ offset

/-- Nothing but filling in a count is neither refused nor appends. -/
theorem finishes_of_plain (accepted : operation.fault? marks = none)
    (plain : operation.piece? = none) :
    ∃ mark elements, operation = .finishSequence mark elements ∧
      (marks[mark]?.isSome → elements < halfWordLimit) := by
  cases operation with
  | finishSequence mark elements =>
    refine ⟨mark, elements, rfl, fun known => ?_⟩
    simpa [fault?, known] using accepted
  | string text =>
    simp only [fault?, piece?, ite_eq_left_iff, ite_eq_right_iff] at accepted plain
    by_cases short : text.toUTF8.toList.length + 1 < halfWordLimit
    · cases plain short
    · cases accepted short
  | count n =>
    simp only [fault?, piece?, ite_eq_left_iff, ite_eq_right_iff] at accepted plain
    by_cases small : n < halfWordLimit
    · cases plain small
    · cases accepted small
  | scalar | raw | align | beginSequence => cases plain

theorem call_of_fault? {fault : Fault} (refused : operation.fault? marks = some fault)
    (w : Writer) :
    operation.call marks w = (⟨.error (.invalidData fault), w.position, marks⟩, w) := by
  rw [call, perform_of_fault? refused]
  rfl

theorem call_of_ok {after w : Writer} (accepted : operation.fault? marks = none)
    (ran : operation.perform marks w =
      .ok (operation.expected marks offset).marks after)
    (moved : after.position = operation.stop offset) :
    operation.call marks w = (operation.expected marks offset, after) := by
  simp only [call, ran, moved]
  cases appends : operation.piece? with
  | none => simp only [expected, accepted, appends, stop_of_piece?_eq_none appends]
  | some pair => simp only [expected, accepted, appends]

theorem perform_measuring_of_piece? (regular : operation.Aligned)
    (short : operation.stop offset < wordLimit)
    (appends : operation.piece? = some (alignment, piece)) :
    operation.perform marks ⟨.measure, offset⟩ =
      .ok (operation.marksWith marks (offset + gap offset alignment))
        ⟨.measure, operation.stop offset⟩ := by
  obtain ⟨power, small⟩ := alignment_of_piece? regular appends
  have ends := stop_of_piece? appends offset
  rw [ends] at short ⊢
  have room := Writer.reserve_measuring_of_lt power small (show offset + gap offset alignment < _ by
    omega) (show gap offset alignment + piece.length < _ by omega)
  have placed : Writer.place (offset + gap offset alignment) piece ⟨.measure, offset⟩ =
      .ok () ⟨.measure, offset + gap offset alignment + piece.length⟩ := if_pos (by omega)
  rw [perform_measuring_eq_reserve appends, bind_of_ok room, bind_of_ok placed, Nat.add_assoc]
  rfl

theorem perform_of_piece?_of_le (regular : operation.Aligned)
    (short : operation.stop offset < wordLimit)
    (appends : operation.piece? = some (alignment, piece))
    (fits : operation.stop offset ≤ bytes.length) :
    operation.perform marks ⟨.buffer bytes, offset⟩ =
      .ok (operation.marksWith marks (offset + gap offset alignment))
        ⟨.buffer (overwrite bytes offset (aligned alignment offset piece)),
          operation.stop offset⟩ := by
  obtain ⟨power, small⟩ := alignment_of_piece? regular appends
  have ends := stop_of_piece? appends offset
  rw [ends] at short fits
  have raised := raised_lt power small (show offset + gap offset alignment < wordLimit by omega)
  have room := Writer.reserve_of_le power (by omega) fits
  have joined := overwrite_overwrite bytes (zeros (gap offset alignment)) piece
    (show offset ≤ bytes.length by omega)
  rw [length_zeros] at joined
  rw [perform_buffer_eq_reserve regular appends raised, bind_of_ok room, ends, aligned, ← joined,
    ← Nat.add_assoc]
  rfl

theorem perform_of_piece?_of_lt (regular : operation.Aligned)
    (short : operation.stop offset < wordLimit)
    (appends : operation.piece? = some (alignment, piece)) (inside : offset ≤ bytes.length)
    (exceeds : bytes.length < operation.stop offset) :
    operation.perform marks ⟨.buffer bytes, offset⟩ =
      .error (.answered (.encodeOverflow offset (operation.stop offset - offset) bytes.length))
        ⟨.buffer bytes, offset⟩ := by
  obtain ⟨power, small⟩ := alignment_of_piece? regular appends
  have ends := stop_of_piece? appends offset
  rw [ends] at short exceeds
  have raised := raised_lt power small (show offset + gap offset alignment < wordLimit by omega)
  have full := Writer.reserve_of_lt power (by omega) inside exceeds
  rw [perform_buffer_eq_reserve regular appends raised, bind_of_error full, ends,
    Nat.add_sub_cancel_left]

theorem perform_measuring_of_plain (accepted : operation.fault? marks = none)
    (plain : operation.piece? = none) :
    operation.perform marks ⟨.measure, offset⟩ = .ok marks ⟨.measure, offset⟩ := by
  obtain ⟨mark, elements, rfl, bounded⟩ := finishes_of_plain accepted plain
  cases known : marks[mark]? with
  | none =>
    simp only [perform, known]
    rfl
  | some found =>
    have small := bounded (by rw [known]; rfl)
    simp only [perform, known]
    rw [bind_of_ok (Writer.finishSequence_measuring small found offset)]
    rfl

/-- A mark of the run itself is never refused. -/
theorem perform_of_plain (accepted : operation.fault? marks = none)
    (plain : operation.piece? = none) (below : MarksBelow marks offset)
    (inside : offset ≤ bytes.length) :
    ∃ after, after.length = bytes.length ∧
      operation.perform marks ⟨.buffer bytes, offset⟩ = .ok marks ⟨.buffer after, offset⟩ := by
  obtain ⟨mark, elements, rfl, bounded⟩ := finishes_of_plain accepted plain
  cases known : marks[mark]? with
  | none =>
    refine ⟨bytes, rfl, ?_⟩
    simp only [perform, known]
    rfl
  | some found =>
    have small := bounded (by rw [known]; rfl)
    have before := below found (List.mem_of_getElem? known)
    have place : found.offset + (littleEndian 4 elements).length ≤ bytes.length := by
      rw [length_littleEndian]
      omega
    refine ⟨_, length_overwrite bytes _ place, ?_⟩
    simp only [perform, known]
    rw [bind_of_ok (Writer.finishSequence_of_le small before)]
    rfl

/-- A measuring writer does what is expected, as long as the position fits a word. -/
theorem call_measuring (regular : operation.Aligned) (short : operation.stop offset < wordLimit) :
    operation.call marks ⟨.measure, offset⟩ =
      (operation.expected marks offset, ⟨.measure, operation.stop offset⟩) := by
  cases refused : operation.fault? marks with
  | some fault =>
    have stays := stop_of_piece?_eq_none (piece?_of_fault? refused) offset
    rw [call_of_fault? refused, stays, expected, refused]
  | none =>
    apply call_of_ok refused _ rfl
    cases appends : operation.piece? with
    | some pair =>
      rw [expected_of_piece? appends]
      exact perform_measuring_of_piece? regular short appends
    | none =>
      rw [expected_of_plain refused appends, stop_of_piece?_eq_none appends]
      exact perform_measuring_of_plain refused appends

/-- A writer over a buffer does what is expected, as long as the position stays inside. -/
theorem call_of_le (regular : operation.Aligned) (short : operation.stop offset < wordLimit)
    (below : MarksBelow marks offset) (fits : operation.stop offset ≤ bytes.length) :
    ∃ after, after.length = bytes.length ∧ operation.call marks ⟨.buffer bytes, offset⟩ =
      (operation.expected marks offset, ⟨.buffer after, operation.stop offset⟩) := by
  cases refused : operation.fault? marks with
  | some fault =>
    have stays := stop_of_piece?_eq_none (piece?_of_fault? refused) offset
    refine ⟨bytes, rfl, ?_⟩
    rw [call_of_fault? refused, stays, expected, refused]
  | none =>
    cases appends : operation.piece? with
    | some pair =>
      obtain ⟨alignment, piece⟩ := pair
      have ends := stop_of_piece? appends offset
      have room : offset + (aligned alignment offset piece).length ≤ bytes.length := by
        rw [length_aligned]
        omega
      refine ⟨_, length_overwrite bytes _ room, call_of_ok refused ?_ rfl⟩
      rw [expected_of_piece? appends]
      exact perform_of_piece?_of_le regular short appends fits
    | none =>
      have stays := stop_of_piece?_eq_none appends offset
      rw [stays] at fits ⊢
      obtain ⟨after, same, ran⟩ := perform_of_plain refused appends below fits
      refine ⟨after, same, call_of_ok refused ?_ stays.symm⟩
      rw [expected_of_plain refused appends]
      exact ran

/-- A call that would end outside the buffer changes nothing and says where it would have begun. -/
theorem call_of_lt (regular : operation.Aligned) (short : operation.stop offset < wordLimit)
    (inside : offset ≤ bytes.length) (exceeds : bytes.length < operation.stop offset) :
    operation.call marks ⟨.buffer bytes, offset⟩ =
      (⟨.error (.encodeOverflow offset (operation.stop offset - offset) bytes.length), offset,
        marks⟩, ⟨.buffer bytes, offset⟩) := by
  cases appends : operation.piece? with
  | none =>
    rw [stop_of_piece?_eq_none appends] at exceeds
    omega
  | some pair =>
    rw [call, perform_of_piece?_of_lt regular short appends inside exceeds]
    rfl

theorem marksBelow_expected (below : MarksBelow marks offset) :
    MarksBelow (operation.expected marks offset).marks (operation.stop offset) := by
  have kept : MarksBelow marks (operation.stop offset) := by
    intro mark member
    exact (below mark member).trans (operation.le_stop offset)
  cases operation with
  | beginSequence =>
    have ends : stop .beginSequence offset = offset + (gap offset 4 + (zeros 4).length) :=
      stop_of_piece? rfl offset
    rw [length_zeros] at ends
    intro mark member
    rcases List.mem_append.mp member with earlier | new
    · exact kept mark earlier
    · rw [List.mem_singleton.mp new, ends]
      show offset + gap offset 4 + 4 ≤ _
      omega
  | _ =>
    rw [expected]
    split <;> exact kept

/-- The call succeeded, or was refused for what it is, and not for a mark. -/
def Settled : Ending Unit → Prop
  | .ok () => True
  | .error e => ∃ fault, e = .invalidData fault ∧ fault ≠ .foreignMark
  | .panic => False

theorem settled_expected (operation : WriterOperation) (marks : List SequenceMark) (offset : Nat) :
    Settled (operation.expected marks offset).result := by
  cases refused : operation.fault? marks with
  | none =>
    rw [expected, refused]
    cases operation.piece? <;> trivial
  | some fault =>
    simp only [expected, refused]
    refine ⟨fault, rfl, ?_⟩
    rintro rfl
    cases operation <;> simp [fault?] at refused

end Step

section Run

variable {operations : List WriterOperation} {marks : List SequenceMark} {offset : Nat}
  {bytes : List UInt8}

@[simp] theorem length_trace (operations : List WriterOperation) (marks : List SequenceMark)
    (w : Writer) : (trace operations marks w).length = operations.length := by
  induction operations generalizing marks w with
  | nil => rfl
  | cons operation rest ih => simp [trace, ih]

theorem le_stopAll (operations : List WriterOperation) (offset : Nat) :
    offset ≤ stopAll operations offset := by
  induction operations generalizing offset with
  | nil => exact Nat.le_refl _
  | cons operation rest ih => exact (operation.le_stop offset).trans (ih _)

def reached (start : Nat) (outcomes : List WriterOutcome) : Nat :=
  (outcomes.getLast?.map WriterOutcome.position).getD start

theorem reached_cons (start : Nat) (outcome : WriterOutcome) (rest : List WriterOutcome) :
    reached start (outcome :: rest) = reached outcome.position rest := by
  rw [reached, reached, List.getLast?_cons, Option.map_some, Option.getD_some]
  cases rest.getLast? <;> rfl

/-- How a run over `capacity` bytes follows a measured one: a call that no earlier one has kept from
its place ends as it was measured if that is inside, and overflows there if it is not. -/
def Follows (capacity start : Nat) (measured written : List WriterOutcome) : Prop :=
  ∀ before outcome after, measured = before ++ outcome :: after →
    (∀ earlier ∈ before, earlier.position ≤ capacity) →
    (outcome.position ≤ capacity →
      written[before.length]? = some outcome ∧ Settled outcome.result) ∧
    (capacity < outcome.position →
      ∃ failed, written[before.length]? = some failed ∧
        failed.result = .error (.encodeOverflow (reached start before)
          (outcome.position - reached start before) capacity))

theorem follows_nil (capacity start : Nat) (written : List WriterOutcome) :
    Follows capacity start [] written := by
  intro before outcome after parts
  simp at parts

theorem Follows.cons_of_le {capacity start : Nat} {first : WriterOutcome}
    {measured written : List WriterOutcome}
    (follows : Follows capacity first.position measured written)
    (fits : first.position ≤ capacity)
    (settled : Settled first.result) :
    Follows capacity start (first :: measured) (first :: written) := by
  intro before outcome after parts inside
  cases before with
  | nil =>
    obtain ⟨rfl, rfl⟩ := List.cons.inj parts
    refine ⟨fun _ => ⟨rfl, settled⟩, fun exceeds => ?_⟩
    omega
  | cons head before =>
    obtain ⟨rfl, rest⟩ := List.cons.inj parts
    rw [reached_cons, List.length_cons, List.getElem?_cons_succ]
    apply follows before outcome after rest
    intro earlier member
    exact inside earlier (List.mem_cons_of_mem _ member)

/-- Behind a call that overflows nothing is said any more. -/
theorem follows_cons_of_lt {capacity start : Nat} {first failed : WriterOutcome}
    (measured written : List WriterOutcome) (exceeds : capacity < first.position)
    (overflows : failed.result =
      .error (.encodeOverflow start (first.position - start) capacity)) :
    Follows capacity start (first :: measured) (failed :: written) := by
  intro before outcome after parts inside
  cases before with
  | nil =>
    obtain ⟨rfl, rfl⟩ := List.cons.inj parts
    refine ⟨fun fits => ?_, fun _ => ⟨failed, rfl, overflows⟩⟩
    omega
  | cons head before =>
    obtain ⟨rfl, parts⟩ := List.cons.inj parts
    have fits := inside first List.mem_cons_self
    omega

theorem trace_follows (regular : ∀ operation ∈ operations, operation.Aligned)
    (small : stopAll operations offset < wordLimit)
    (below : MarksBelow marks offset) (inside : offset ≤ bytes.length) :
    Follows bytes.length offset (trace operations marks ⟨.measure, offset⟩)
      (trace operations marks ⟨.buffer bytes, offset⟩) := by
  -- Marks, position and buffer change with every call; the invariant says where the marks lie.
  induction operations generalizing marks offset bytes with
  | nil => exact follows_nil _ _ _
  | cons operation rest ih =>
    have regularHere := regular operation List.mem_cons_self
    have regularRest : ∀ other ∈ rest, other.Aligned := fun other member =>
      regular other (List.mem_cons_of_mem _ member)
    have short : operation.stop offset < wordLimit := (le_stopAll rest _).trans_lt small
    have ends := position_expected operation marks offset
    simp only [trace, call_measuring regularHere short]
    by_cases fits : operation.stop offset ≤ bytes.length
    · obtain ⟨after, same, called⟩ := call_of_le regularHere short below fits
      rw [← same] at fits
      have follows := ih regularRest small (marksBelow_expected below) fits
      rw [called, ← ends, ← same]
      rw [← ends] at follows fits
      exact follows.cons_of_le fits (settled_expected _ _ _)
    · have exceeds := Nat.lt_of_not_le fits
      rw [call_of_lt regularHere short inside exceeds]
      apply follows_cons_of_lt
      · rw [ends]
        exact exceeds
      · rw [ends]

/-- A measuring writer and a writer over a buffer make the same of every run, up to the first call
that the buffer has no room for. -/
theorem buffer_follows_measuring (operations : List WriterOperation) (buffer : List UInt8)
    (regular : ∀ operation ∈ operations, operation.Aligned)
    (small : stopAll operations 0 < 2 ^ 63) :
    (trace operations [] .measuring).length = operations.length ∧
    (trace operations [] (.ofBuffer buffer)).length = operations.length ∧
    Follows buffer.length 0 (trace operations [] .measuring)
      (trace operations [] (.ofBuffer buffer)) := by
  refine ⟨length_trace _ _ _, length_trace _ _ _, trace_follows regular ?_ ?_ (Nat.zero_le _)⟩
  · exact small.trans (by decide)
  · intro mark member
    cases member

def sampleOperations : List WriterOperation :=
  [.scalar .uint8 (7 : UInt8), .beginSequence, .string "hi", .finishSequence 0 1, .align 8,
    .scalar .uint16 (9 : UInt16)]

/-- The number begins behind 16 bytes, and a buffer of 17 has no room for both of its bytes. -/
theorem buffer_follows_measuring_sample :
    (∀ operation ∈ sampleOperations, operation.Aligned) ∧ stopAll sampleOperations 0 < 2 ^ 63 ∧
    (trace sampleOperations [] (.ofBuffer (.replicate 17 255)))[3]? =
      some ⟨.ok (), 15, [⟨4⟩]⟩ ∧
    ∃ failed, (trace sampleOperations [] (.ofBuffer (.replicate 17 255)))[5]? = some failed ∧
      failed.result = .error (.encodeOverflow 16 2 17) := by
  have regular : ∀ operation ∈ sampleOperations, operation.Aligned := by
    simp only [sampleOperations, List.forall_mem_cons, Aligned, true_and, List.not_mem_nil,
      false_imp_iff, implies_true, and_true]
    exact ⟨⟨3, rfl⟩, by decide⟩
  have small : stopAll sampleOperations 0 < 2 ^ 63 := by
    decide +kernel
  have measured : trace sampleOperations [] .measuring =
      [⟨.ok (), 1, []⟩, ⟨.ok (), 8, [⟨4⟩]⟩, ⟨.ok (), 15, [⟨4⟩]⟩] ++
        ⟨.ok (), 15, [⟨4⟩]⟩ :: [⟨.ok (), 16, [⟨4⟩]⟩, ⟨.ok (), 18, [⟨4⟩]⟩] := by
    decide +kernel
  obtain ⟨_, _, follows⟩ :=
    buffer_follows_measuring sampleOperations (.replicate 17 255) regular small
  have filled := follows _ _ _ measured (by decide)
  have stopped := follows [_, _, _, _, _] _ [] measured (by decide)
  exact ⟨regular, small, (filled.1 (by decide)).1, stopped.2 (by decide)⟩

end Run

end WriterOperation
end WireSchema
