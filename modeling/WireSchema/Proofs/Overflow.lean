import WireSchema.Proofs.Confinement
import WireSchema.Proofs.Serialize

/-! A measuring writer at the end of the word, where it panics. -/

namespace WireSchema
namespace WriterOperation

section Step

variable {operation : WriterOperation} {marks : List SequenceMark} {alignment position : Nat}
  {piece : List UInt8}

/-- The outcomes of a call of a measuring writer. Only a call that begins inside the word and is
longer than the word by itself is refused for its length; every other one that would end behind the
word panics. -/
inductive Measured (operation : WriterOperation) (marks : List SequenceMark) (position : Nat) :
    WriterOutcome × Writer → Prop
  | refused {fault : Fault} (refused : operation.fault? marks = some fault) :
    Measured operation marks position
      (⟨.error (.invalidData fault), position, marks⟩, ⟨.measure, position⟩)
  | moved {pad : Nat} {piece : List UInt8} (appends : operation.Appends position pad piece)
      (fits : position + (pad + piece.length) < wordLimit) :
    Measured operation marks position
      (⟨.ok (), position + (pad + piece.length), operation.marksWith marks (position + pad)⟩,
        ⟨.measure, position + (pad + piece.length)⟩)
  | long {pad : Nat} {piece : List UInt8} (appends : operation.Appends position pad piece)
      (start : position + pad < wordLimit) (long : wordLimit ≤ pad + piece.length) :
    Measured operation marks position
      (⟨.error (.invalidData .lengthOverflow), position, marks⟩, ⟨.measure, position⟩)
  | panics {pad : Nat} {piece : List UInt8} (appends : operation.Appends position pad piece)
      (passed : wordLimit ≤ position + (pad + piece.length))
      (unchecked : wordLimit ≤ position + pad ∨ pad + piece.length < wordLimit) :
    Measured operation marks position (⟨.panic, position, marks⟩, ⟨.measure, position⟩)
  | stays (accepted : operation.fault? marks = none) (plain : operation.piece? = none) :
    Measured operation marks position (⟨.ok (), position, marks⟩, ⟨.measure, position⟩)

theorem measured_append (regular : operation.Aligned)
    (appends : operation.piece? = some (alignment, piece)) (inside : position < wordLimit) :
    Measured operation marks position (operation.call marks ⟨.measure, position⟩) := by
  obtain ⟨power, small⟩ := alignment_of_piece? regular appends
  have least := appends_of_piece? regular appends position
  have ends := stop_of_piece? appends position
  by_cases fits : operation.stop position < wordLimit
  · rw [call, perform_measuring_of_piece? regular fits appends]
    rw [ends] at fits ⊢
    exact .moved least fits
  have passed := Nat.le_of_not_lt fits
  rw [ends] at passed
  rw [call, perform_measuring_eq_reserve appends]
  by_cases start : position + gap position alignment < wordLimit
  · by_cases long : wordLimit ≤ gap position alignment + piece.length
    · rw [bind_of_error (Writer.reserve_measuring_of_overflow power small start long)]
      exact .long least start long
    · have short := Nat.lt_of_not_le long
      have placed : Writer.place (position + gap position alignment) piece ⟨.measure, position⟩ =
          .error .panic ⟨.measure, position⟩ := if_neg (by omega)
      rw [bind_of_ok (Writer.reserve_measuring_of_lt power small start short),
        bind_of_error placed]
      exact .panics least passed (.inr short)
  · have behind := Nat.le_of_not_lt start
    rw [bind_of_error (Writer.reserve_measuring_of_le power small inside behind piece.length)]
    exact .panics least passed (.inl behind)

theorem measured_call (regular : operation.Aligned) (inside : position < wordLimit)
    (marks : List SequenceMark) :
    Measured operation marks position (operation.call marks ⟨.measure, position⟩) := by
  cases refused : operation.fault? marks with
  | some fault =>
    rw [call_of_fault? refused]
    exact .refused refused
  | none =>
    cases appends : operation.piece? with
    | some pair => exact measured_append regular appends inside
    | none =>
      rw [call, perform_measuring_of_plain refused appends]
      exact .stays refused appends

/-- The position never goes back, and stays inside the word. -/
theorem Measured.inside {result : WriterOutcome × Writer}
    (measured : Measured operation marks position result) (inside : position < wordLimit) :
    ∃ next, result.2 = ⟨.measure, next⟩ ∧ position ≤ next ∧ next < wordLimit := by
  cases measured with
  | moved appends fits => exact ⟨_, rfl, Nat.le_add_right _ _, fits⟩
  | refused | long | panics | stays => exact ⟨position, rfl, Nat.le_refl _, inside⟩

/-- No piece of memory is longer than a signed word can say. -/
def InMemory : WriterOperation → Prop
  | .raw bytes => bytes.length < 2 ^ 63
  | _ => True

theorem length_lt_of_piece? (held : operation.InMemory)
    (appends : operation.piece? = some (alignment, piece)) : piece.length < 2 ^ 63 := by
  cases operation with
  | scalar kind value =>
    cases appends
    rw [kind.length_bytes]
    exact kind.width_le.trans_lt (by decide)
  | string text =>
    simp only [piece?, Option.ite_none_right_eq_some] at appends
    obtain ⟨short, same⟩ := appends
    cases same
    have half : halfWordLimit + 4 < 2 ^ 63 := by decide
    rw [length_stringBytes]
    omega
  | raw bytes =>
    cases appends
    exact held
  | count n =>
    simp only [piece?, Option.ite_none_right_eq_some] at appends
    cases appends.2
    rw [length_littleEndian]
    decide
  | align alignment =>
    cases appends
    decide
  | beginSequence =>
    cases appends
    decide
  | finishSequence mark elements => cases appends

/-- The check for a length of its own never fails for bytes in memory. -/
theorem gap_add_length_lt (regular : operation.Aligned) (held : operation.InMemory)
    (appends : operation.piece? = some (alignment, piece)) (position : Nat) :
    gap position alignment + piece.length < wordLimit := by
  obtain ⟨power, small⟩ := alignment_of_piece? regular appends
  have pad := gap_lt position (Nat.pos_of_isPowerOfTwo power)
  have half := le_half_of_isPowerOfTwo power small
  have size := length_lt_of_piece? held appends
  have limit : 2 ^ 63 + 2 ^ 63 = wordLimit := rfl
  omega

theorem Appends.exists_gap {pad : Nat} (appends : operation.Appends position pad piece)
    (regular : operation.Aligned) :
    ∃ alignment, operation.piece? = some (alignment, piece) ∧ pad = gap position alignment := by
  obtain ⟨alignment, found, least⟩ := appends
  have positive := Nat.pos_of_isPowerOfTwo (alignment_of_piece? regular found).1
  exact ⟨alignment, found, least.unique (isLeast_gap position positive)⟩

theorem Appends.stop_eq {pad : Nat} (appends : operation.Appends position pad piece)
    (regular : operation.Aligned) : operation.stop position = position + (pad + piece.length) := by
  obtain ⟨alignment, found, rfl⟩ := appends.exists_gap regular
  exact stop_of_piece? found position

/-- With bytes in memory the panic is the only thing that happens behind the word. -/
theorem Measured.of_inMemory {result : WriterOutcome × Writer}
    (measured : Measured operation marks position result) (regular : operation.Aligned)
    (held : operation.InMemory) (inside : position < wordLimit) :
    (result.1.result = .panic ↔ wordLimit ≤ operation.stop position) ∧
      result.1.result ≠ .error (.invalidData .lengthOverflow) := by
  cases measured with
  | refused refused =>
    rw [stop_of_piece?_eq_none (piece?_of_fault? refused)]
    refine ⟨iff_of_false (by simp) (by omega), fun overflow => ?_⟩
    cases overflow
    cases operation <;> simp [fault?] at refused
  | moved appends fits =>
    rw [appends.stop_eq regular]
    exact ⟨iff_of_false (by simp) (by omega), by simp⟩
  | long appends start long =>
    obtain ⟨alignment, found, rfl⟩ := appends.exists_gap regular
    exact absurd (gap_add_length_lt regular held found position) (Nat.not_lt_of_le long)
  | panics appends passed unchecked =>
    rw [appends.stop_eq regular]
    exact ⟨iff_of_true rfl passed, by simp⟩
  | stays accepted plain =>
    rw [stop_of_piece?_eq_none plain]
    exact ⟨iff_of_false (by simp) (by omega), by simp⟩

end Step

section Run

variable {operations : List WriterOperation}

theorem left_measuring (regular : ∀ operation ∈ operations, operation.Aligned) {position : Nat}
    (inside : position < wordLimit) (marks : List SequenceMark) :
    ∃ known next, left operations marks ⟨.measure, position⟩ = (known, ⟨.measure, next⟩) ∧
      position ≤ next ∧ next < wordLimit := by
  induction operations generalizing marks position with
  | nil => exact ⟨marks, position, rfl, Nat.le_refl _, inside⟩
  | cons operation rest ih =>
    obtain ⟨regularHere, regularRest⟩ := List.forall_mem_cons.mp regular
    have measured := measured_call regularHere inside marks
    obtain ⟨reached, same, forward, short⟩ := measured.inside inside
    obtain ⟨known, next, ran, further, small⟩ :=
      ih regularRest short (operation.call marks ⟨.measure, position⟩).1.marks
    refine ⟨known, next, ?_, forward.trans further, small⟩
    rw [left, ← ran, ← same]

/-- As long as the run ends inside the word, it ends where the numbers do. -/
theorem left_measuring_of_lt (regular : ∀ operation ∈ operations, operation.Aligned) {offset : Nat}
    (short : stopAll operations offset < wordLimit) (marks : List SequenceMark) :
    (left operations marks ⟨.measure, offset⟩).2 = ⟨.measure, stopAll operations offset⟩ := by
  induction operations generalizing marks offset with
  | nil => rfl
  | cons operation rest ih =>
    obtain ⟨regularHere, regularRest⟩ := List.forall_mem_cons.mp regular
    have fits : operation.stop offset < wordLimit := (le_stopAll rest _).trans_lt short
    rw [left, call_measuring regularHere fits]
    exact ih regularRest short _

/-- A measuring writer never wraps around. At any point of any run the next call moves the position
on by the least padding and its bytes, or leaves it where it is. A call that would end behind the
word is not refused for it: with bytes that memory can hold, it panics. So what `encodedSize`
answers is the true length. -/
theorem measuring_never_wraps (before : List WriterOperation) (operation : WriterOperation)
    (regular : ∀ other ∈ operation :: before, other.Aligned) (foreign : List SequenceMark) :
    (∃ known position next, left before foreign .measuring = (known, ⟨.measure, position⟩) ∧
      (operation.call known ⟨.measure, position⟩).2 = ⟨.measure, next⟩ ∧
      position ≤ next ∧ next < wordLimit ∧
      (stopAll before 0 < wordLimit → position = stopAll before 0) ∧
      Measured operation known position (operation.call known ⟨.measure, position⟩) ∧
      (operation.InMemory →
        ((operation.call known ⟨.measure, position⟩).1.result = .panic ↔
          wordLimit ≤ operation.stop position) ∧
        (operation.call known ⟨.measure, position⟩).1.result ≠
          .error (.invalidData .lengthOverflow))) ∧
    ∀ (type : WireType) (value : type.Value),
      (∀ size, Envelope.encodedSize type value = .ok size →
        size = (type.encoding value).length) ∧
      (type.Encodable (type.content value) → wordLimit ≤ (type.encoding value).length →
        Envelope.encodedSize type value = .panic) := by
  obtain ⟨regularHere, regularBefore⟩ := List.forall_mem_cons.mp regular
  constructor
  · obtain ⟨known, position, ran, -, inside⟩ :=
      left_measuring regularBefore (show 0 < wordLimit by decide) foreign
    have measured := measured_call regularHere inside known
    obtain ⟨next, called, forward, small⟩ := measured.inside inside
    refine ⟨known, position, next, ran, called, forward, small, fun short => ?_, measured,
      fun held => measured.of_inMemory regularHere held inside⟩
    have whole := left_measuring_of_lt regularBefore short foreign
    exact congrArg Writer.position ((congrArg Prod.snd ran).symm.trans whole)
  · intro type value
    refine ⟨fun size measured => (Envelope.encodedSize_eq_ok.mp measured).2.1, ?_⟩
    intro encodable passed
    rw [Envelope.encodedSize_of_encodable encodable, if_neg (Nat.not_lt_of_le passed)]

def aroundOperations : List WriterOperation :=
  [.scalar .uint8 (1 : UInt8), .align (2 ^ 63), .scalar .uint8 (2 : UInt8), .align (2 ^ 63)]

theorem aligned_aroundOperations : ∀ operation ∈ aroundOperations, operation.Aligned := by
  simp only [aroundOperations, List.forall_mem_cons, Aligned, true_and, List.not_mem_nil,
    false_imp_iff, implies_true, and_true]
  exact ⟨⟨⟨63, rfl⟩, by decide⟩, ⟨63, rfl⟩, by decide⟩

/-- The last call would end exactly behind the word. -/
theorem measuring_never_wraps_around :
    (∀ other ∈ .align (2 ^ 63) :: aroundOperations.take 3, other.Aligned) ∧
    InMemory (.align (2 ^ 63)) ∧
    left (aroundOperations.take 3) [] .measuring = ([], ⟨.measure, 2 ^ 63 + 1⟩) ∧
    stop (.align (2 ^ 63)) (2 ^ 63 + 1) = wordLimit ∧
    (call (.align (2 ^ 63)) [] ⟨.measure, 2 ^ 63 + 1⟩).1.result = .panic := by
  have regular : ∀ other ∈ .align (2 ^ 63) :: aroundOperations.take 3, other.Aligned := by
    intro other member
    apply aligned_aroundOperations
    rcases List.mem_cons.mp member with rfl | earlier
    · simp [aroundOperations]
    · exact List.mem_of_mem_take earlier
  have reached : (left (aroundOperations.take 3) [] .measuring).1 = [] ∧
      (left (aroundOperations.take 3) [] .measuring).2.position = 2 ^ 63 + 1 := by
    decide +kernel
  have ends : stop (.align (2 ^ 63)) (2 ^ 63 + 1) = wordLimit :=
    (stop_of_piece? rfl _).trans (by decide +kernel)
  obtain ⟨⟨known, position, next, ran, -, -, -, -, -, panics⟩, -⟩ :=
    measuring_never_wraps (aroundOperations.take 3) (.align (2 ^ 63)) regular []
  rw [ran] at reached
  obtain ⟨rfl, rfl⟩ := reached
  exact ⟨regular, trivial, ran, ends, (panics trivial).1.mpr ends.ge⟩

/-- The last call would end behind the word, and is not refused for it. -/
theorem measuring_panics_around :
    (∀ operation ∈ aroundOperations, operation.Aligned) ∧
    trace aroundOperations [] .measuring =
      [⟨.ok (), 1, []⟩, ⟨.ok (), 2 ^ 63, []⟩, ⟨.ok (), 2 ^ 63 + 1, []⟩,
        ⟨.panic, 2 ^ 63 + 1, []⟩] ∧
    wordLimit ≤ stop (.align (2 ^ 63)) (2 ^ 63 + 1) ∧
    (call (.align (2 ^ 63)) [] ⟨.measure, 2 ^ 63 + 1⟩).1.result ≠
      .error (.invalidData .lengthOverflow) := by
  refine ⟨aligned_aroundOperations, by decide +kernel, ?_, by decide +kernel⟩
  rw [stop_of_piece? rfl]
  decide +kernel

end Run

end WriterOperation
end WireSchema
