import WireSchema.Proofs.Refusal
import WireSchema.Proofs.Slicing

/-! Runs of reads over one input, failures among them. -/

namespace WireSchema

open EStateM (Result)

inductive ReaderOperation where
  | scalar (kind : Scalar)
  | string
  | raw (size : Nat)
  | count (minSize : Nat)
  | align (alignment : Nat)

namespace ReaderOperation

def Answer : ReaderOperation → Type
  | .scalar kind => kind.Carrier
  | .string => String
  | .raw _ => List UInt8
  | .count _ => Nat
  | .align _ => Unit

def read : (operation : ReaderOperation) → Read operation.Answer
  | .scalar kind => Reader.scalar kind
  | .string => Reader.string
  | .raw size => Reader.raw size
  | .count minSize => Reader.count minSize
  | .align alignment => Reader.skip alignment

/-- Only an alignment can panic. -/
def perform : (operation : ReaderOperation) → EStateM Halt Reader operation.Answer
  | .align alignment => Reader.align alignment
  | operation => fun r => answered (operation.read r)

def sliced (input : List UInt8) : (operation : ReaderOperation) → Sliced operation.Answer
  | .scalar kind => Sliced.scalar input kind
  | .string => Sliced.string input
  | .raw size => Sliced.raw input size
  | .count minSize => Sliced.count input minSize
  | .align alignment => Sliced.align input alignment

def Aligned : ReaderOperation → Prop
  | .align alignment => alignment.isPowerOfTwo ∧ alignment < wordLimit
  | _ => True

/-- The alignment and the number of the bytes that a call asks for first. -/
def first : ReaderOperation → Nat × Nat
  | .scalar kind => (kind.width, kind.width)
  | .string => (4, 4)
  | .raw size => (1, size)
  | .count _ => (4, 4)
  | .align alignment => (alignment, 0)

def Single : ReaderOperation → Prop
  | .string | .count _ => False
  | _ => True

def after (operation : ReaderOperation) (r : Reader) : Reader :=
  match operation.perform r with
  | .ok _ r => r
  | .error _ r => r

def afterAll : List ReaderOperation → Reader → Reader
  | [], r => r
  | operation :: rest, r => afterAll rest (operation.after r)

/-- At `position`, behind its padding, the input has the 32-bit number `n`, which ends at `stop`. -/
def HasNumber (input : List UInt8) (position n stop : Nat) : Prop :=
  stop = position + gap position 4 + 4 ∧ stop ≤ input.length ∧
    ofLittleEndian (slice input (position + gap position 4) 4) = n

/-- The ends that a call may have, each with its answer and the place where it leaves the reader. -/
inductive Ends (input : List UInt8) (position : Nat) :
    (operation : ReaderOperation) → Result Halt Reader operation.Answer → Prop
  | refused {operation : ReaderOperation} {alignment size : Nat}
      (asks : operation.first = (alignment, size))
      (few : input.length - position < saturated (gap position alignment + size)) :
    Ends input position operation
      (.error (.answered (.decodeUnderflow position (saturated (gap position alignment + size))
        (input.length - position))) (.within input position))
  | scalar {kind : Scalar} {start : Nat} (begins : start = position + gap position kind.width)
      (fits : start + kind.width ≤ input.length) :
    Ends input position (.scalar kind)
      (.ok (kind.ofBytes (slice input start kind.width)) (.within input (start + kind.width)))
  | raw {size : Nat} (fits : position + size ≤ input.length) :
    Ends input position (.raw size)
      (.ok (slice input position size) (.within input (position + size)))
  | aligned {alignment start : Nat} (begins : start = position + gap position alignment)
      (fits : start ≤ input.length) :
    Ends input position (.align alignment) (.ok () (.within input start))
  | counted {minSize n stop : Nat} (number : HasNumber input position n stop)
      (enough : stop + n * minSize ≤ input.length) :
    Ends input position (.count minSize) (.ok n (.within input stop))
  | tooMany {minSize n stop : Nat} (number : HasNumber input position n stop)
      (few : input.length - stop < saturated (n * minSize)) :
    Ends input position (.count minSize)
      (.error (.answered (.decodeUnderflow position (saturated (n * minSize))
        (input.length - stop))) (.within input stop))
  | empty {stop : Nat} (number : HasNumber input position 0 stop) :
    Ends input position .string (.ok "" (.within input stop))
  | text {size stop : Nat} {text : String} (number : HasNumber input position size stop)
      (fits : stop + size ≤ input.length)
      (terminated : slice input stop size = text.toUTF8.toList ++ [0]) :
    Ends input position .string (.ok text (.within input (stop + size)))
  | cutOff {size stop : Nat} (number : HasNumber input position size stop)
      (few : input.length - stop < size) :
    Ends input position .string
      (.error (.answered (.decodeUnderflow stop size (input.length - stop))) (.within input stop))
  | unterminated {size stop : Nat} (number : HasNumber input position size stop)
      (positive : 0 < size) (fits : stop + size ≤ input.length)
      (last : (slice input stop size).getLast? ≠ some 0) :
    Ends input position .string
      (.error (.answered (.invalidData .unterminatedString)) (.within input (stop + size)))
  | noText {size stop : Nat} {bytes : List UInt8} (number : HasNumber input position size stop)
      (fits : stop + size ≤ input.length) (terminated : slice input stop size = bytes ++ [0])
      (invalid : ∀ text : String, text.toUTF8.toList ≠ bytes) :
    Ends input position .string
      (.error (.answered (.invalidData .invalidUtf8)) (.within input (stop + size)))

section Call

variable {input : List UInt8} {position : Nat}

theorem word_of_hasNumber {n stop : Nat} (number : HasNumber input position n stop) :
    Reader.word (.within input position) = .ok n (.within input stop) := by
  obtain ⟨rfl, fits, rfl⟩ := number
  exact bind_of_ok (Reader.take_of_fits ⟨2, rfl⟩ (by omega))

/-- Either the number is there or its bytes are too few. -/
theorem hasNumber_or_few (inside : position ≤ input.length) (short : input.length < wordLimit - 1) :
    (∃ n stop, HasNumber input position n stop) ∨
      input.length - position < saturated (gap position 4 + 4) := by
  rcases Reader.take_cases ⟨2, rfl⟩ inside short 4 with ⟨few, -⟩ | ⟨fits, -⟩
  · exact .inr few
  · exact .inl ⟨_, _, rfl, fits, rfl⟩

theorem word_of_few (few : input.length - position < saturated (gap position 4 + 4)) :
    Reader.word (.within input position) =
      .error (.decodeUnderflow position (saturated (gap position 4 + 4)) (input.length - position))
        (.within input position) :=
  bind_of_error (Reader.take_of_few ⟨2, rfl⟩ few)

theorem lt_of_hasNumber {n stop : Nat} (number : HasNumber input position n stop) :
    n < halfWordLimit := by
  obtain ⟨rfl, fits, rfl⟩ := number
  have bound := ofLittleEndian_lt (slice input (position + gap position 4) 4)
  rw [length_slice (by omega)] at bound
  exact bound

/-- What is behind a length that is not zero. -/
theorem ends_terminated {size stop : Nat} (number : HasNumber input position size stop)
    (positive : 0 < size) (fits : stop + size ≤ input.length) :
    Ends input position .string
      (answered (Reader.terminated (slice input stop size) (.within input (stop + size)))) := by
  rw [Reader.terminated]
  by_cases last : (slice input stop size).getLast? = some 0
  · have parts : (slice input stop size).dropLast ++ [0] = slice input stop size :=
      List.dropLast_append_getLast? 0 last
    rw [if_pos last]
    cases found : utf8? (slice input stop size).dropLast with
    | some text =>
      rw [utf8?_eq_some] at found
      exact .text number fits (by rw [found, parts])
    | none =>
      refine .noText number fits parts.symm fun text same => ?_
      rw [utf8?_eq_some.mpr same] at found
      cases found
  · rw [if_neg last]
    exact .unterminated number positive fits last

section Ends

variable (inside : position ≤ input.length) (short : input.length < wordLimit - 1)
include inside short

theorem ends_scalar (kind : Scalar) :
    Ends input position (.scalar kind)
      (answered (Reader.scalar kind (.within input position))) := by
  rw [Reader.scalar]
  rcases Reader.take_cases kind.width_isPowerOfTwo inside short kind.width with
    ⟨few, failed⟩ | ⟨fits, taken⟩
  · rw [bind_of_error failed]
    exact .refused rfl few
  · rw [bind_of_ok taken]
    exact .scalar rfl fits

theorem ends_raw (size : Nat) :
    Ends input position (.raw size) (answered (Reader.raw size (.within input position))) := by
  rw [Reader.raw]
  rcases Reader.take_cases ⟨0, rfl⟩ inside short size with
    ⟨few, failed⟩ | ⟨fits, taken⟩
  · rw [failed]
    exact .refused rfl few
  · rw [taken]
    rw [gap_one] at fits ⊢
    exact .raw fits

theorem ends_skip {alignment : Nat} (power : alignment.isPowerOfTwo) :
    Ends input position (.align alignment)
      (answered (Reader.skip alignment (.within input position))) := by
  rw [Reader.skip]
  rcases Reader.take_cases power inside short 0 with ⟨few, failed⟩ | ⟨fits, taken⟩
  · rw [bind_of_error failed]
    exact .refused rfl few
  · rw [bind_of_ok taken]
    exact .aligned rfl fits

theorem ends_count (minSize : Nat) :
    Ends input position (.count minSize)
      (answered (Reader.count minSize (.within input position))) := by
  rcases hasNumber_or_few inside short with ⟨n, stop, number⟩ | few
  · have read := word_of_hasNumber number
    have left : (Reader.within input stop).unread.length = input.length - stop := List.length_drop
    by_cases few : input.length - stop < saturated (n * minSize)
    · have failed := Reader.count_eq_error.mpr (.inr ⟨n, read, left.trans_lt few, rfl⟩)
      rw [failed, left]
      exact .tooMany number few
    · have enough := Nat.le_of_not_lt few
      rw [Reader.count_eq_ok.mpr ⟨read, enough.trans_eq left.symm⟩]
      exact .counted number (Reader.fits_of_enough number.2.1 short enough)
  · have got (r : Reader) : (get : Read Reader) r = .ok r r := rfl
    rw [Reader.count, bind_of_ok (got _), bind_of_error (word_of_few few)]
    exact .refused rfl few

theorem ends_string : Ends input position .string
    (answered (Reader.string (.within input position))) := by
  rw [Reader.string_eq]
  rcases hasNumber_or_few inside short with ⟨size, stop, number⟩ | few
  · rw [bind_of_ok (word_of_hasNumber number)]
    by_cases zero : size = 0
    · rw [if_pos zero]
      rw [zero] at number
      exact .empty number
    · rw [if_neg zero]
      rcases Reader.take_cases ⟨0, rfl⟩ number.2.1 short size with
        ⟨few, failed⟩ | ⟨fits, taken⟩
      · have word : saturated (gap stop 1 + size) = size := by
          have small := lt_of_hasNumber number
          have limit : halfWordLimit < wordLimit - 1 := by decide
          rw [gap_one, Nat.zero_add, saturated, Nat.min_eq_left (by omega)]
        rw [bind_of_error failed, word]
        rw [word] at few
        exact .cutOff number few
      · rw [bind_of_ok taken]
        rw [gap_one] at fits ⊢
        exact ends_terminated number (Nat.pos_of_ne_zero zero) fits
  · rw [bind_of_error (word_of_few few)]
    exact .refused rfl few

end Ends

variable {operation : ReaderOperation}

/-- No offset into an input is so large that an alignment carries it out of the word. -/
theorem perform_eq_answered (regular : operation.Aligned) (inside : position ≤ input.length)
    (short : input.length < 2 ^ 63) :
    operation.perform (.within input position) =
      answered (operation.read (.within input position)) := by
  cases operation with
  | align alignment =>
    obtain ⟨power, small⟩ := regular
    obtain ⟨pad, found, -⟩ :=
      padding_eq_some power small (raised_lt_of_lt power small (inside.trans_lt short))
    have passes : ¬ (padding (.ofNat position) (.ofNat alignment)).isNone := by
      simp [found]
    exact if_neg passes
  | scalar | string | raw | count => rfl

theorem ends_read (regular : operation.Aligned) (inside : position ≤ input.length)
    (short : input.length < wordLimit - 1) :
    Ends input position operation (answered (operation.read (.within input position))) := by
  cases operation with
  | scalar kind => exact ends_scalar inside short kind
  | string => exact ends_string inside short
  | raw size => exact ends_raw inside short size
  | count minSize => exact ends_count inside short minSize
  | align alignment => exact ends_skip inside short regular.1

/-- Inside the input no check fails. -/
theorem keeps_read (regular : operation.Aligned) (inside : position ≤ input.length)
    (short : input.length < 2 ^ 63) :
    Keeps input position (operation.sliced input) operation.read := by
  cases operation with
  | scalar kind => exact Sliced.keeps_scalar short inside kind
  | string => exact Sliced.keeps_string short inside
  | raw size => exact Sliced.keeps_raw short inside size
  | count minSize => exact Sliced.keeps_count short inside minSize
  | align alignment => exact Sliced.keeps_align short inside regular.1 regular.2

theorem after_within (regular : operation.Aligned) (inside : position ≤ input.length)
    (short : input.length < 2 ^ 63) :
    ∃ next, operation.after (.within input position) = .within input next ∧ position ≤ next ∧
      next ≤ input.length := by
  obtain ⟨next, forward, within, ⟨value, ran, -⟩ | ⟨e, ran, -⟩⟩ :=
    keeps_read regular inside short
  all_goals
    rw [after, perform_eq_answered regular inside short, ran]
    exact ⟨next, rfl, forward, within⟩

theorem afterAll_within {operations : List ReaderOperation}
    (regular : ∀ operation ∈ operations, operation.Aligned) (inside : position ≤ input.length)
    (short : input.length < 2 ^ 63) :
    ∃ next, afterAll operations (.within input position) = .within input next ∧ position ≤ next ∧
      next ≤ input.length := by
  induction operations generalizing position with
  | nil => exact ⟨position, rfl, Nat.le_refl _, inside⟩
  | cons operation rest ih =>
    obtain ⟨regularHere, regularRest⟩ := List.forall_mem_cons.mp regular
    obtain ⟨middle, reached, forward, within⟩ := after_within regularHere inside short
    obtain ⟨next, ran, further, last⟩ := ih regularRest within
    rw [afterAll, reached, ran]
    exact ⟨next, rfl, forward.trans further, last⟩

/-- A refused call says so with more bytes than there are. -/
theorem Ends.isUnderflow {offset needed left : Nat} {r : Reader}
    {result : Result Halt Reader operation.Answer}
    (ends : Ends input position operation result)
    (failed : result = .error (.answered (.decodeUnderflow offset needed left)) r) :
    left < needed := by
  cases ends <;> cases failed <;> assumption

/-- A call that asks for bytes once fails where it began. -/
theorem Ends.unmoved {halt : Halt} {r : Reader} {result : Result Halt Reader operation.Answer}
    (ends : Ends input position operation result) (single : operation.Single)
    (failed : result = .error halt r) : r = .within input position := by
  cases ends <;> cases failed <;> first | rfl | exact single.elim

theorem Ends.isAnswered {halt : Halt} {r : Reader} {result : Result Halt Reader operation.Answer}
    (ends : Ends input position operation result) (failed : result = .error halt r) :
    ∃ e, halt = .answered e := by
  cases ends <;> cases failed <;> exact ⟨_, rfl⟩

/-- At any point of any run over an input the next read moves on inside the input, ends in one of
the ways described, and fails no check. -/
theorem reads_inside (input : List UInt8) (small : input.length < 2 ^ 63)
    (before : List ReaderOperation) (operation : ReaderOperation)
    (regular : ∀ other ∈ operation :: before, other.Aligned) :
    ∃ position next, afterAll before (.ofBytes input) = .within input position ∧
      operation.after (.within input position) = .within input next ∧
      position ≤ next ∧ next ≤ input.length ∧
      Ends input position operation (operation.perform (.within input position)) ∧
      (∀ halt r, operation.perform (.within input position) = .error halt r →
        ∃ e, halt = .answered e ∧ (operation.Single → r = .within input position) ∧
        ∀ offset needed left, e = .decodeUnderflow offset needed left → left < needed) ∧
      operation.sliced input position = reached (operation.perform (.within input position)) := by
  obtain ⟨regularHere, regularBefore⟩ := List.forall_mem_cons.mp regular
  have start : Reader.ofBytes input = .within input 0 := rfl
  obtain ⟨position, ran, -, inside⟩ := afterAll_within regularBefore (Nat.zero_le _) small
  obtain ⟨next, called, forward, within⟩ := after_within regularHere inside small
  have same := perform_eq_answered regularHere inside small
  have ends := ends_read regularHere inside (small.trans signed_lt_word)
  rw [← same] at ends
  refine ⟨position, next, start ▸ ran, called, forward, within, ends, ?_, ?_⟩
  · intro halt r failed
    obtain ⟨e, rfl⟩ := ends.isAnswered failed
    refine ⟨e, rfl, fun single => ends.unmoved single failed, ?_⟩
    rintro offset needed left rfl
    exact ends.isUnderflow failed
  · rw [same]
    exact (keeps_read regularHere inside small).reached

/-- Two bytes of text without a NUL, padding, and the number three with one byte behind it. -/
def brokenInput : List UInt8 := [2, 0, 0, 0, 97, 98, 9, 9, 3, 0, 0, 0, 255]

def brokenReads : List ReaderOperation := [.string, .align 8, .count 1, .raw 9]

/-- The text is refused behind all its bytes, the number behind itself, and the raw bytes where
they begin. The last byte is still read. -/
theorem reads_inside_brokenInput :
    brokenInput.length < 2 ^ 63 ∧ (∀ other ∈ .scalar .uint8 :: brokenReads, other.Aligned) ∧
    Reader.string (.within brokenInput 0) =
      .error (.invalidData .unterminatedString) (.within brokenInput 6) ∧
    Reader.count 1 (.within brokenInput 8) =
      .error (.decodeUnderflow 8 3 1) (.within brokenInput 12) ∧
    ∃ next, afterAll brokenReads (.ofBytes brokenInput) = .within brokenInput 12 ∧
      after (.scalar .uint8) (.within brokenInput 12) = .within brokenInput next ∧
      next ≤ brokenInput.length ∧
      Ends brokenInput 12 (.scalar .uint8) (perform (.scalar .uint8) (.within brokenInput 12)) := by
  have small : brokenInput.length < 2 ^ 63 := by decide
  have regular : ∀ other ∈ .scalar .uint8 :: brokenReads, other.Aligned := by
    simp only [brokenReads, List.forall_mem_cons, Aligned, true_and, List.not_mem_nil,
      false_imp_iff, implies_true, and_true]
    exact ⟨⟨3, rfl⟩, by decide⟩
  have reachedAt : (afterAll brokenReads (.ofBytes brokenInput)).position = 12 := by
    decide +kernel
  obtain ⟨position, next, ran, called, -, within, ends, -⟩ :=
    reads_inside brokenInput small brokenReads (.scalar .uint8) regular
  rw [ran] at reachedAt
  obtain rfl : position = 12 := reachedAt
  exact ⟨small, regular, rfl, rfl, next, ran, called, within, ends⟩

end Call

end ReaderOperation

end WireSchema
