import Mathlib.Data.Bool.AllAny
import WireSchema.Proofs.Quoting
import WireSchema.Token.Lexer

/-! What a text begins with, token by token. -/

namespace WireSchema.Token

section Characters

variable {c : Char}

def blanks : List Char :=
  ['\t', '\n', '\x0b', '\x0c', '\r', ' ', '\u0085', '\u00a0', '\u1680', '\u2000', '\u2001',
    '\u2002', '\u2003', '\u2004', '\u2005', '\u2006', '\u2007', '\u2008', '\u2009', '\u200a',
    '\u2028', '\u2029', '\u202f', '\u205f', '\u3000']

theorem mem_blanks (blank : Text.isBlank c = true) : c ∈ blanks := by
  have code : c.toNat ∈ blanks.map Char.toNat := by
    have codes : blanks.map Char.toNat = [9, 10, 11, 12, 13, 0x20, 0x85, 0xA0, 0x1680, 0x2000,
        0x2001, 0x2002, 0x2003, 0x2004, 0x2005, 0x2006, 0x2007, 0x2008, 0x2009, 0x200A, 0x2028,
        0x2029, 0x202F, 0x205F, 0x3000] := by
      decide
    simp only [Text.isBlank, Bool.or_eq_true, Bool.and_eq_true, decide_eq_true_eq,
      beq_iff_eq] at blank
    simp only [codes, List.mem_cons, List.not_mem_nil, or_false]
    omega
  obtain ⟨d, member, same⟩ := List.mem_map.mp code
  rwa [← Char.toNat_inj.mp same]

/-- What may follow a word, a number or a quoted text. -/
def separators : List Char := [':', ';', ',', '<', '>', ')', '[', ']', '!', '+'] ++ blanks

def Separated (rest : List Char) : Prop := ∀ c ∈ rest.head?, c ∈ separators

theorem contains_eq_any (ranges : Text.Ranges) (c : Char) :
    ranges.contains c =
      ranges.toList.any fun (low, high) => low ≤ c.toNat && c.toNat ≤ high := by
  rw [Text.Ranges.contains, Array.any_toList]

theorem isWordRest_separator (separator : c ∈ separators) :
    Text.isWordRest c = false ∧ startsWord c = false := by
  have outside : ∀ c ∈ separators,
      (Text.wordRestRanges.toList.any fun (low, high) => low ≤ c.toNat && c.toNat ≤ high) = false ∧
      (c == '_' || Text.wordStartRanges.toList.any
        fun (low, high) => low ≤ c.toNat && c.toNat ≤ high) = false :=
    List.all_iff_forall_prop.mp (by decide +kernel)
  rw [startsWord, Text.isWordStart, Text.isWordRest, contains_eq_any, contains_eq_any]
  exact outside c separator

theorem isIdentifierStart_iff : isIdentifierStart c = true ↔
    c.toNat = 95 ∨ (65 ≤ c.toNat ∧ c.toNat ≤ 90) ∨ (97 ≤ c.toNat ∧ c.toNat ≤ 122) := by
  have underscore : c = '_' ↔ c.toNat = 95 := by
    rw [← Char.toNat_inj]
    rfl
  have upper : c.isUpper = true ↔ 65 ≤ c.toNat ∧ c.toNat ≤ 90 := decide_eq_true_iff
  have lower : c.isLower = true ↔ 97 ≤ c.toNat ∧ c.toNat ≤ 122 := by
    refine Iff.trans (Bool.and_eq_true_iff ..) ?_
    exact and_congr decide_eq_true_iff decide_eq_true_iff
  have alpha : c.isAlpha = true ↔ c.isUpper = true ∨ c.isLower = true := Bool.or_eq_true_iff ..
  simp [isIdentifierStart, alpha, upper, lower, underscore]

theorem isIdentifierRest_iff : isIdentifierRest c = true ↔
    isIdentifierStart c = true ∨ (48 ≤ c.toNat ∧ c.toNat ≤ 57) := by
  simp [isIdentifierStart, isIdentifierRest, Char.isAlphanum, Char.isDigit, or_assoc,
    UInt32.le_iff_toNat_le]

theorem mem_contains {ranges : Text.Ranges} {low high : Nat}
    (member : (low, high) ∈ ranges.toList) (above : low ≤ c.toNat) (below : c.toNat ≤ high) :
    ranges.contains c = true := by
  rw [contains_eq_any, List.any_eq_true]
  exact ⟨(low, high), member, by simp [above, below]⟩

theorem startsWord_identifier (start : isIdentifierStart c = true) : startsWord c = true := by
  rw [startsWord, Bool.or_eq_true]
  rcases isIdentifierStart_iff.mp start with underscore | ⟨above, below⟩ | ⟨above, below⟩
  · have same : c = '_' := Char.toNat_inj.mp underscore
    exact .inl (by simp [same])
  · exact .inr (mem_contains (by decide) above below)
  · exact .inr (mem_contains (by decide) above below)

theorem isWordRest_identifier (part : isIdentifierRest c = true) : Text.isWordRest c = true := by
  rcases isIdentifierRest_iff.mp part with start | ⟨above, below⟩
  · rcases isIdentifierStart_iff.mp start with underscore | ⟨above, below⟩ | ⟨above, below⟩
    · have here : (0x5f, 0x5f) ∈ Text.wordRestRanges.toList := by decide
      exact mem_contains here (by omega) (by omega)
    · have here : (0x41, 0x5a) ∈ Text.wordRestRanges.toList := by decide
      exact mem_contains here above below
    · have here : (0x61, 0x7a) ∈ Text.wordRestRanges.toList := by decide
      exact mem_contains here above below
  · have here : (0x30, 0x39) ∈ Text.wordRestRanges.toList := by decide
    exact mem_contains here above below

/-- A character of a list that has none of the characters of words is none of them. -/
theorem not_mem_of_identifier {cs : List Char} (apart : cs.all fun d => !isIdentifierRest d)
    (part : isIdentifierRest c = true) : c ∉ cs := by
  intro member
  have other := List.all_eq_true.mp apart c member
  simp [part] at other

end Characters

section Words

variable {c : Char} {cs rest : List Char}

theorem dropFront?_eq_some_iff {front text rest : List Char} :
    Text.dropFront? front text = some rest ↔ text = front ++ rest := by
  induction front generalizing text with
  | nil => simp [Text.dropFront?]
  | cons f front ih =>
    cases text with
    | nil => simp [Text.dropFront?]
    | cons c text =>
      rw [Text.dropFront?]
      split
      · rename_i same
        simp [same, ih]
      · rename_i differs
        simp [Ne.symm differs]

def quoteMarks : List Char := ['"', '\'', '#']

/-- Behind the word at the front there is no quote and no hash mark. -/
def PlainEnd (cs : List Char) : Prop :=
  ∀ c ∈ (cs.dropWhile isIdentifierRest).head?, c ∉ quoteMarks

theorem plainEnd_append (word : cs.all isIdentifierRest = true) (separated : Separated rest) :
    PlainEnd (cs ++ rest) := by
  have stops : rest.dropWhile isIdentifierRest = rest := by
    cases rest with
    | nil => rfl
    | cons d rest =>
      apply List.dropWhile_cons_of_neg
      intro part
      exact not_mem_of_identifier (by decide) part (separated d rfl)
  rw [PlainEnd, List.dropWhile_append_of_pos (List.all_eq_true.mp word), stops]
  intro d head
  have apart : ∀ d ∈ separators, d ∉ quoteMarks := List.all_iff_forall_prop.mp (by decide)
  exact apart d (separated d head)

theorem PlainEnd.tail (plain : PlainEnd (c :: cs)) (part : isIdentifierRest c = true) :
    PlainEnd cs := by
  rw [PlainEnd, List.dropWhile_cons_of_pos part] at plain
  exact plain

theorem PlainEnd.head (plain : PlainEnd (c :: cs)) : c ∉ quoteMarks := by
  by_cases part : isIdentifierRest c = true
  · exact not_mem_of_identifier (by decide) part
  · rw [PlainEnd, List.dropWhile_cons_of_neg part] at plain
    exact plain c rfl

theorem raw?_eq_none (plain : PlainEnd cs) (kind : QuoteKind) : raw? kind cs = none := by
  cases cs with
  | nil => rfl
  | cons d cs =>
    have apart := plain.head
    simp only [quoteMarks, List.mem_cons, List.not_mem_nil, or_false, not_or] at apart
    rw [raw?, List.dropWhile_cons_of_neg (by simp [apart.2.2])]
    split
    · rename_i shape
      exact (apart.1 (List.cons.inj shape).1).elim
    · rfl

theorem hexValue?_identifierStart (start : isIdentifierStart c = true) {d : Nat}
    (value : Text.hexValue? c = some d) : 10 ≤ d := by
  rw [isIdentifierStart_iff] at start
  rw [Text.hexValue?] at value
  split at value
  · rename_i digit
    have above : 48 ≤ c.toNat := digit.1
    have below : c.toNat ≤ 57 := digit.2
    omega
  · split at value
    · rename_i lower
      have above : 97 ≤ c.toNat := lower.1
      have same := Option.some.inj value
      omega
    · split at value
      · rename_i upper
        have above : 65 ≤ c.toNat := upper.1
        have same := Option.some.inj value
        omega
      · cases value

theorem integer?_identifierStart (start : isIdentifierStart c = true) (cs : List Char) :
    integer? (c :: cs) = none := by
  have zero : c ≠ '0' := by
    rintro rfl
    cases start
  have base : basePart (c :: cs) = (10, c :: cs) := by
    unfold basePart
    split <;> simp_all
  rw [integer?, base]
  show (digits? 10 0 false (c :: cs)).bind _ = none
  rw [digits?]
  split
  · rfl
  · cases value : Text.hexValue? c with
    | none => rfl
    | some d =>
      have large := hexValue?_identifierStart start value
      simp [Nat.not_lt.mpr large]

theorem float?_identifierStart (start : isIdentifierStart c = true) (cs : List Char) :
    float? (c :: cs) = none := by
  have digit : c.isDigit = false := by
    rw [isIdentifierStart_iff] at start
    simp only [Char.isDigit, UInt32.le_iff_toNat_le, ge_iff_le, Bool.and_eq_false_iff,
      decide_eq_false_iff_not]
    show ¬ 48 ≤ c.toNat ∨ ¬ c.toNat ≤ 57
    omega
  simp [float?, digit]

theorem literal?_identifierStart (start : isIdentifierStart c = true)
    (plain : PlainEnd (c :: cs)) : literal? (c :: cs) = none := by
  have behind := plain.tail (isIdentifierRest_iff.mpr (.inl start))
  unfold literal?
  split
  all_goals rename_i shape
  · obtain ⟨rfl, rfl⟩ := List.cons.inj shape
    exact absurd start (by decide)
  · obtain ⟨rfl, rfl⟩ := List.cons.inj shape
    rw [raw?_eq_none behind]
    rfl
  · obtain ⟨rfl, rfl⟩ := List.cons.inj shape
    exact absurd behind.head (by decide)
  · obtain ⟨rfl, rfl⟩ := List.cons.inj shape
    rw [raw?_eq_none (behind.tail (by decide))]
    rfl
  · obtain ⟨rfl, rfl⟩ := List.cons.inj shape
    exact absurd behind.head (by decide)
  · obtain ⟨rfl, rfl⟩ := List.cons.inj shape
    rw [raw?_eq_none (behind.tail (by decide))]
    rfl
  · obtain ⟨rfl, rfl⟩ := List.cons.inj shape
    exact absurd behind.head (by decide)
  · obtain ⟨rfl, rfl⟩ := List.cons.inj shape
    exact absurd start (by decide)
  · rw [float?_identifierStart start, integer?_identifierStart start]
    rfl

theorem literalStarts_apart (plain : PlainEnd cs) :
    (literalStarts.any fun start => (Text.dropFront? start cs).isSome) = false := by
  rw [List.any_eq_false]
  intro start member found
  obtain ⟨rest, found⟩ := Option.isSome_iff_exists.mp found
  rw [dropFront?_eq_some_iff] at found
  subst found
  have quoted : (literalStarts.all fun start =>
      (start.dropWhile isIdentifierRest).head?.any quoteMarks.contains) = true := by
    decide
  obtain ⟨c, head, mark⟩ := (Option.any_eq_true _ _).mp (List.all_eq_true.mp quoted start member)
  apply plain c _ (List.contains_iff_mem.mp mark)
  rw [List.dropWhile_append]
  cases ends : start.dropWhile isIdentifierRest with
  | nil =>
    rw [ends] at head
    cases head
  | cons d more =>
    rw [ends] at head
    exact head

theorem startsMark_identifierStart (start : isIdentifierStart c = true) (cs : List Char) :
    startsMark (c :: cs) = false := by
  have part := isIdentifierRest_iff.mpr (.inl start)
  have apart : c ∉ "~!@#$%^&*-=+|;:,<.>/?'".toList := not_mem_of_identifier (by decide) part
  unfold startsMark
  split
  · rfl
  · rfl
  · rename_i shape
    obtain ⟨rfl, rfl⟩ := List.cons.inj shape
    rw [isMark, List.contains_eq_mem, decide_eq_false apart]
  · rfl

theorem mark?_identifierStart (start : isIdentifierStart c = true) (cs : List Char) :
    mark? (c :: cs) = none := by
  unfold mark?
  rw [startsMark_identifierStart start]
  rfl

theorem markedWord?_plain (start : isIdentifierStart c = true) (plain : PlainEnd (c :: cs)) :
    markedWord? (c :: cs) = word? (c :: cs) := by
  unfold markedWord?
  split
  · rename_i shape
    obtain ⟨rfl, rfl⟩ := List.cons.inj shape
    exact absurd (plain.tail (by decide)).head (by decide)
  · rfl

theorem exists_of_isIdentifier {name : String} (valid : isIdentifier name = true) :
    ∃ c cs, name.toList = c :: cs ∧ isIdentifierStart c = true ∧
      cs.all isIdentifierRest = true := by
  rw [isIdentifier] at valid
  split at valid
  · cases valid
  · rename_i c cs shape
    simp only [Bool.and_eq_true] at valid
    exact ⟨c, cs, shape, valid.1.1.1, valid.1.1.2⟩

theorem startsMark_word {name : String} (valid : isIdentifier name = true) (rest : List Char) :
    startsMark (name.toList ++ rest) = false := by
  obtain ⟨c, cs, shape, start, -⟩ := exists_of_isIdentifier valid
  rw [shape]
  exact startsMark_identifierStart start (cs ++ rest)

theorem word?_append (start : isIdentifierStart c = true) (word : cs.all isIdentifierRest = true)
    (separated : Separated rest) : word? (c :: (cs ++ rest)) = some (c :: cs, rest) := by
  have parts : ∀ d ∈ cs, Text.isWordRest d = true := fun d member =>
    isWordRest_identifier (List.all_eq_true.mp word d member)
  have stops : ∀ d ∈ rest.head?, ¬ Text.isWordRest d = true := by
    intro d head
    simp [(isWordRest_separator (separated d head)).1]
  have taken : rest.takeWhile Text.isWordRest = [] ∧ rest.dropWhile Text.isWordRest = rest := by
    cases rest with
    | nil => exact ⟨rfl, rfl⟩
    | cons d rest =>
      exact ⟨List.takeWhile_cons_of_neg (stops d rfl), List.dropWhile_cons_of_neg (stops d rfl)⟩
  rw [word?, if_pos (startsWord_identifier start), List.takeWhile_append_of_pos parts,
    List.dropWhile_append_of_pos parts, taken.1, taken.2, List.append_nil]

structure IsWord (cs : List Char) : Prop where
  first : (cs.head?.map isIdentifierStart).getD false = true
  parts : cs.all isIdentifierRest = true

theorem isWord_of_isIdentifier {name : String} (valid : isIdentifier name = true) :
    IsWord name.toList := by
  obtain ⟨c, cs, shape, start, word⟩ := exists_of_isIdentifier valid
  rw [shape]
  refine ⟨start, ?_⟩
  rw [List.all_cons, word, isIdentifierRest_iff.mpr (.inl start)]
  rfl

theorem leaf?_isWord (word : IsWord cs) (separated : Separated rest) :
    leaf? (cs ++ rest) = some (.word (.ofList cs), rest) := by
  obtain ⟨first, parts⟩ := word
  cases cs with
  | nil => cases first
  | cons c cs =>
    have start : isIdentifierStart c = true := first
    have plain : PlainEnd (c :: (cs ++ rest)) := plainEnd_append parts separated
    rw [List.all_cons, Bool.and_eq_true] at parts
    rw [List.cons_append, leaf?, literal?_identifierStart start plain,
      mark?_identifierStart start]
    simp only
    rw [literalStarts_apart plain, markedWord?_plain start plain,
      word?_append start parts.2 separated]
    rfl

end Words

section Numbers

variable {rest ds : List Char}

def isDecimalPart (c : Char) : Bool := c.isDigit || c == '_'

theorem isIdentifierRest_of_isDecimalPart {c : Char} (part : isDecimalPart c = true) :
    isIdentifierRest c = true := by
  rw [isDecimalPart, Bool.or_eq_true] at part
  rcases part with digit | underscore
  · simp [isIdentifierRest, Char.isAlphanum, digit]
  · simp [isIdentifierRest, underscore]

/-- Decimal digits with underscores among them, a digit in front. -/
structure IsNumeral (cs : List Char) : Prop where
  first : (cs.head?.map Char.isDigit).getD false = true
  digits : ∀ c ∈ cs, isDecimalPart c = true

def numeralValue (cs : List Char) : Nat := Nat.ofDigitChars 10 (cs.filter (· != '_')) 0

theorem digits?_digit {d : Char} (digit : d.isDigit = true) (value : Nat) (found : Bool)
    (rest : List Char) :
    digits? 10 value found (d :: rest) = digits? 10 (10 * value + (d.toNat - 48)) true rest := by
  have underscore : d ≠ '_' := by
    rintro rfl
    cases digit
  have range : 48 ≤ d.toNat ∧ d.toNat ≤ 57 := by
    simpa [Char.isDigit, UInt32.le_iff_toNat_le] using digit
  have hex : Text.hexValue? d = some (d.toNat - 48) := if_pos range
  rw [digits?, if_neg underscore, hex]
  exact if_pos (by omega)

theorem digits?_decimalParts (digits : ∀ c ∈ ds, isDecimalPart c = true) (value : Nat) :
    digits? 10 value true (ds ++ rest) =
      digits? 10 (Nat.ofDigitChars 10 (ds.filter (· != '_')) value) true rest := by
  induction ds generalizing value with
  | nil => rfl
  | cons d ds ih =>
    rw [List.forall_mem_cons] at digits
    by_cases underscore : d = '_'
    · rw [underscore, List.cons_append, digits?, if_pos rfl]
      exact ih digits.2 value
    · have digit : d.isDigit = true := by simpa [isDecimalPart, underscore] using digits.1
      rw [List.cons_append, digits?_digit digit, ih digits.2,
        List.filter_cons_of_pos (by simpa using underscore)]
      rfl

theorem digits?_numeral (numeral : IsNumeral ds) :
    digits? 10 0 false (ds ++ rest) = digits? 10 (numeralValue ds) true rest := by
  obtain ⟨first, digits⟩ := numeral
  cases ds with
  | nil => cases first
  | cons d ds =>
    rw [List.forall_mem_cons] at digits
    have digit : d.isDigit = true := first
    have underscore : d ≠ '_' := by
      rintro rfl
      cases digit
    rw [List.cons_append, digits?_digit digit, digits?_decimalParts digits.2, numeralValue,
      List.filter_cons_of_pos (by simpa using underscore)]
    rfl

theorem digits?_separated (separated : Separated rest) (n : Nat) :
    digits? 10 n true rest = some (n, true, rest) := by
  cases rest with
  | nil => rfl
  | cons c rest =>
    have apart : ∀ c ∈ separators, c ≠ '_' ∧ Text.hexValue? c = none :=
      List.all_iff_forall_prop.mp (by decide)
    obtain ⟨underscore, digitless⟩ := apart c (separated c rfl)
    rw [digits?, if_neg underscore, digitless]

theorem suffix_separated (separated : Separated rest) : suffix rest = ([], rest) := by
  cases rest with
  | nil => rfl
  | cons c rest =>
    have wordless := (isWordRest_separator (separated c rfl)).2
    simp [suffix, word?, wordless]

theorem endOfNumber?_separated (separated : Separated rest) : endOfNumber? rest = some rest := by
  cases rest with
  | nil => rfl
  | cons c rest =>
    have wordless := (isWordRest_separator (separated c rfl)).1
    simp [endOfNumber?, wordless]

/-- Digits without a point and an exponent are no number with a fraction. -/
theorem floatRest?_eq_none (digits : ∀ d ∈ ds, isDecimalPart d = true)
    (separated : Separated rest) : floatRest? false (ds ++ rest) = none := by
  induction ds with
  | nil =>
    cases rest with
    | nil => rfl
    | cons c rest =>
      have apart : ∀ c ∈ separators, (c.isDigit || c = '_') = false ∧ c ≠ '.' ∧
          (c = 'e' || c = 'E') = false := List.all_iff_forall_prop.mp (by decide)
      obtain ⟨digit, point, exponent⟩ := apart c (separated c rfl)
      rw [List.nil_append, floatRest?, digit, exponent, if_neg point]
      rfl
  | cons d ds ih =>
    rw [List.forall_mem_cons] at digits
    have part : (d.isDigit || d = '_') = true := digits.1
    rw [List.cons_append, floatRest?, part, if_pos rfl]
    exact ih digits.2

/-- Behind a first zero there is no letter. -/
theorem second_of_digits {more : List Char} {c : Char} (digits : ∀ d ∈ ds, isDecimalPart d = true)
    (separated : Separated rest) (shape : ds ++ rest = '0' :: c :: more) :
    isDecimalPart c = true ∨ c ∈ separators := by
  match ds, shape with
  | [], shape =>
    rw [List.nil_append] at shape
    rw [shape] at separated
    exact absurd (separated '0' rfl) (by decide)
  | [d], shape =>
    rw [List.singleton_append] at shape
    rw [(List.cons.inj shape).2] at separated
    exact .inr (separated c rfl)
  | d :: e :: ds, shape =>
    have same := (List.cons.inj (List.cons.inj shape).2).1
    rw [← same]
    exact .inl (digits e (by simp))

theorem basePart_digits (digits : ∀ d ∈ ds, isDecimalPart d = true)
    (separated : Separated rest) : basePart (ds ++ rest) = (10, ds ++ rest) := by
  unfold basePart
  split
  · rename_i shape
    exact absurd (second_of_digits digits separated shape) (by decide)
  · rename_i shape
    exact absurd (second_of_digits digits separated shape) (by decide)
  · rename_i shape
    exact absurd (second_of_digits digits separated shape) (by decide)
  · rfl

theorem integer?_digits {base n : Nat} {cs body : List Char} (based : basePart cs = (base, body))
    (digits : digits? base 0 false body = some (n, true, rest)) (separated : Separated rest) :
    integer? cs = some (.integer n "", rest) := by
  rw [integer?, based]
  simp only
  rw [digits]
  simp [suffix_separated separated, endOfNumber?_separated separated]

theorem integer?_numeral (numeral : IsNumeral ds) (separated : Separated rest) :
    integer? (ds ++ rest) = some (.integer (numeralValue ds) "", rest) := by
  refine integer?_digits (basePart_digits numeral.digits separated) ?_ separated
  rw [digits?_numeral numeral, digits?_separated separated]

/-- What begins with a digit can be a number only. -/
theorem literal?_digit {d : Char} (digit : d.isDigit = true) (cs : List Char) :
    literal? (d :: cs) = (float? (d :: cs) <|> integer? (d :: cs)) := by
  unfold literal?
  split
  any_goals
    rename_i start
    obtain ⟨rfl, -⟩ := List.cons.inj start
    exact absurd digit (by decide)
  rfl

theorem leaf?_numeral (numeral : IsNumeral ds) (separated : Separated rest) :
    leaf? (ds ++ rest) = some (.literal (.integer (numeralValue ds) ""), rest) := by
  have integer := integer?_numeral numeral separated
  obtain ⟨first, digits⟩ := numeral
  cases ds with
  | nil => cases first
  | cons d ds =>
    rw [List.forall_mem_cons] at digits
    have digit : d.isDigit = true := first
    have float : float? (d :: (ds ++ rest)) = none := by
      simp [float?, digit, floatRest?_eq_none digits.2 separated]
    rw [List.cons_append] at integer ⊢
    rw [leaf?, literal?_digit digit, float, integer]
    rfl

theorem isDigit_toDigits (n : Nat) : ∀ d ∈ Nat.toDigits 10 n, d.isDigit = true := by
  intro d member
  exact Nat.isDigit_of_mem_toDigits (by omega) (le_refl 10) member

theorem isNumeral_toDigits (n : Nat) : IsNumeral (Nat.toDigits 10 n) where
  first := by
    cases shape : Nat.toDigits 10 n with
    | nil => exact absurd shape Nat.toDigits_ne_nil
    | cons d ds => exact isDigit_toDigits n d (by simp [shape])
  digits d member := by rw [isDecimalPart, isDigit_toDigits n d member, Bool.true_or]

theorem numeralValue_toDigits (n : Nat) : numeralValue (Nat.toDigits 10 n) = n := by
  have kept : (Nat.toDigits 10 n).filter (· != '_') = Nat.toDigits 10 n := by
    rw [List.filter_eq_self]
    intro d member
    rw [bne_iff_ne]
    rintro rfl
    exact absurd (isDigit_toDigits n '_' member) (by decide)
  rw [numeralValue, kept, Nat.ofDigitChars_toDigits (by decide) (by decide)]

end Numbers

section Quotes

theorem leaf?_shown {rest : List Char} (separated : Separated rest) (text : String) :
    leaf? ((Text.Quoted.shown text).toList ++ rest) =
      some (.literal (.string text), rest) := by
  have literal : literal? ('"' :: (Text.Quoted.encode .short text.toList ++ '"' :: rest)) =
      some (.string text, rest) := by
    show Option.map _ (quoted? .text _) = _
    rw [quoted?_encode]
    simp [dropSuffix, suffix_separated separated]
  have shape : (Text.Quoted.shown text).toList ++ rest =
      '"' :: (Text.Quoted.encode .short text.toList ++ '"' :: rest) := by
    simp [Text.Quoted.shown]
  rw [shape, leaf?, literal]

end Quotes

section Lines

variable {rest : List Char}

def EndsLine (rest : List Char) : Prop := ∀ c ∈ rest.head?, c = '\n'

theorem EndsLine.startsMark (ends : EndsLine rest) : startsMark rest = false := by
  cases rest with
  | nil => rfl
  | cons c rest =>
    rw [ends c rfl]
    rfl

theorem lineRest_append {line : List Char} (feed : '\n' ∉ line) (ret : '\r' ∉ line)
    (ends : EndsLine rest) : lineRest (line ++ rest) = (line, rest) := by
  induction line with
  | nil =>
    cases rest with
    | nil => rfl
    | cons c rest =>
      rw [ends c rfl]
      rfl
  | cons c line ih =>
    rw [List.mem_cons, not_or] at feed ret
    rw [List.cons_append, lineRest, ih feed.2 ret.2]
    · exact fun same => feed.1 same.symm
    · exact fun _ same => absurd same (Ne.symm ret.1)

theorem returnsPaired_of_not_mem {line : List Char} (ret : '\r' ∉ line) :
    returnsPaired line = true := by
  induction line with
  | nil => rfl
  | cons c line ih =>
    rw [List.mem_cons, not_or] at ret
    rw [returnsPaired, ih ret.2]
    · exact fun _ same => absurd same (Ne.symm ret.1)
    · exact fun same => absurd same (Ne.symm ret.1)

theorem next?_documentation {line : List Char} (slash : line.head? ≠ some '/')
    (feed : '\n' ∉ line) (ret : '\r' ∉ line) (ends : EndsLine rest) :
    next? ("///".toList ++ line ++ rest) = some (documentationLexemes line false, rest) := by
  have apart : (line ++ rest).head? ≠ some '/' := by
    cases line with
    | nil =>
      intro head
      exact absurd (ends '/' head) (by decide)
    | cons c line => exact slash
  have trivia : skipTrivia? ('/' :: '/' :: '/' :: (line ++ rest)) = none := by
    unfold skipTrivia?
    split
    case h_1 shape =>
      simp only [List.cons.injEq, true_and] at shape
      rw [shape] at apart
      exact (apart rfl).elim
    case h_2 => rfl
    case h_4 longer _ shape =>
      exact (longer _ (List.cons.inj (List.cons.inj shape).2).2.symm).elim
    case h_10 comment _ _ _ _ _ shape =>
      obtain ⟨rfl, rfl⟩ := List.cons.inj shape
      exact (comment _ rfl rfl).elim
    all_goals simp_all
  have found : documentation? ('/' :: '/' :: '/' :: (line ++ rest)) =
      some (line, false, rest) := by
    have paired := returnsPaired_of_not_mem ret
    simp only [documentation?, if_neg apart, lineRest_append feed ret ends, paired, if_true,
      Option.bind_eq_bind, Option.bind_some]
  show next? ('/' :: '/' :: '/' :: (line ++ rest)) = _
  unfold next?
  rw [trivia, found]

theorem lineRest_rest {line : List Char} (feed : '\n' ∉ line) (ends : EndsLine rest) :
    (lineRest (line ++ rest)).2 = rest := by
  induction line with
  | nil =>
    cases rest with
    | nil => rfl
    | cons c rest =>
      rw [ends c rfl]
      rfl
  | cons c line ih =>
    rw [List.mem_cons, not_or] at feed
    have later := ih feed.2
    rw [List.cons_append]
    unfold lineRest
    split
    case h_1 shape => cases shape
    case h_2 shape => exact absurd (List.cons.inj shape).1.symm feed.1
    case h_3 shape =>
      -- The carriage return ends the line together with the line feed behind it.
      rw [(List.cons.inj shape).2] at later
      exact later
    case h_4 shape =>
      rw [(List.cons.inj shape).2] at later
      exact later

/-- A comment that is none for documentation is passed over with its line. -/
theorem next?_comment {line : List Char} (feed : '\n' ∉ line) (ends : EndsLine rest) :
    next? ("// ".toList ++ line ++ rest) = some ([], rest) := by
  have trivia : skipTrivia? ('/' :: '/' :: (' ' :: line ++ rest)) = some rest := by
    have passed : (lineRest (' ' :: line ++ rest)).2 = rest := lineRest_rest (by simp [feed]) ends
    exact congrArg some passed
  show next? ('/' :: '/' :: (' ' :: line ++ rest)) = _
  unfold next?
  rw [trivia]

end Lines

section Front

variable {rest : List Char}

theorem skipTrivia?_eq_none {c : Char} (slash : c ≠ '/') (space : isSpace c = false)
    (cs : List Char) : skipTrivia? (c :: cs) = none := by
  unfold skipTrivia?
  split
  case h_10 shape =>
    obtain ⟨rfl, rfl⟩ := List.cons.inj shape
    rw [space]
    rfl
  case h_11 shape => cases shape
  all_goals
    rename_i shape
    exact (slash (List.cons.inj shape).1).elim

theorem documentation?_eq_none {c : Char} (slash : c ≠ '/') (cs : List Char) :
    documentation? (c :: cs) = none := by
  unfold documentation?
  split
  case h_5 => rfl
  all_goals
    rename_i shape
    exact (slash (List.cons.inj shape).1).elim

theorem next?_leaf {c : Char} (apart : c ∉ "/([\x7b)]\x7d".toList) (space : isSpace c = false)
    (cs : List Char) :
    next? (c :: cs) = (leaf? (c :: cs)).map fun (token, rest) => ([.leaf token], rest) := by
  have differs : ∀ d ∈ "/([\x7b)]\x7d".toList, c ≠ d := fun d member same => apart (same ▸ member)
  have slash := differs '/' (by decide)
  have broken : Text.dropFront? brokenLiteral (c :: cs) = none :=
    if_neg (Ne.symm (differs '(' (by decide)))
  unfold next?
  rw [skipTrivia?_eq_none slash space, documentation?_eq_none slash, broken]
  simp only
  split
  case h_7 => rfl
  all_goals
    rename_i shape
    exact absurd (List.cons.inj shape).1 (differs _ (by decide))

theorem isSpace_identifier {c : Char} (part : isIdentifierRest c = true) : isSpace c = false := by
  rw [isIdentifierRest_iff, isIdentifierStart_iff] at part
  have left : c ≠ '\u200e' := by
    rintro rfl
    exact absurd part (by decide)
  have right : c ≠ '\u200f' := by
    rintro rfl
    exact absurd part (by decide)
  simp only [isSpace, Text.isBlank, beq_eq_false_iff_ne.mpr left, beq_eq_false_iff_ne.mpr right,
    Bool.or_false, Bool.or_eq_false_iff, Bool.and_eq_false_iff, decide_eq_false_iff_not,
    beq_eq_false_iff_ne]
  omega

theorem next?_identifier {c : Char} (part : isIdentifierRest c = true) (cs : List Char) :
    next? (c :: cs) = (leaf? (c :: cs)).map fun (token, rest) => ([.leaf token], rest) :=
  next?_leaf (not_mem_of_identifier (by decide) part) (isSpace_identifier part) cs

theorem next?_isWord {cs : List Char} (word : IsWord cs) (separated : Separated rest) :
    next? (cs ++ rest) = some ([.leaf (.word (.ofList cs))], rest) := by
  have leaf := leaf?_isWord word separated
  obtain ⟨first, parts⟩ := word
  cases cs with
  | nil => cases first
  | cons c cs =>
    rw [List.all_cons, Bool.and_eq_true] at parts
    rw [List.cons_append] at leaf ⊢
    rw [next?_identifier parts.1, leaf]
    rfl

theorem next?_word {name : String} (valid : isIdentifier name = true)
    (separated : Separated rest) :
    next? (name.toList ++ rest) = some ([.leaf (.word name)], rest) := by
  rw [next?_isWord (isWord_of_isIdentifier valid) separated, String.ofList_toList]

theorem next?_numeral {ds : List Char} (numeral : IsNumeral ds) (separated : Separated rest) :
    next? (ds ++ rest) = some ([.leaf (.literal (.integer (numeralValue ds) ""))], rest) := by
  have leaf := leaf?_numeral numeral separated
  obtain ⟨first, digits⟩ := numeral
  cases ds with
  | nil => cases first
  | cons d ds =>
    have part := isIdentifierRest_of_isDecimalPart (digits d List.mem_cons_self)
    rw [List.cons_append] at leaf ⊢
    rw [next?_identifier part, leaf]
    rfl

theorem next?_number (separated : Separated rest) (n : Nat) :
    next? ((toString n).toList ++ rest) = some ([.leaf (.literal (.integer n ""))], rest) := by
  rw [Nat.toString_eq_ofList_toDigits, String.toList_ofList,
    next?_numeral (isNumeral_toDigits n) separated, numeralValue_toDigits]

theorem next?_shown (separated : Separated rest) (text : String) :
    next? ((Text.Quoted.shown text).toList ++ rest) =
      some ([.leaf (.literal (.string text))], rest) := by
  have leaf := leaf?_shown separated text
  have shape : (Text.Quoted.shown text).toList ++ rest =
      '"' :: (Text.Quoted.encode .short text.toList ++ '"' :: rest) := by
    simp [Text.Quoted.shown]
  rw [shape] at leaf ⊢
  rw [next?_leaf (by decide) (by decide), leaf]
  rfl

def marks : List Char := [':', '=', ',', ';', '<', '>', '!']

theorem next?_mark {c : Char} (mark : c ∈ marks) (rest : List Char) :
    next? (c :: rest) = some ([.leaf (.mark c (startsMark rest))], rest) := by
  simp only [marks, List.mem_cons, List.not_mem_nil, or_false] at mark
  rcases mark with rfl | rfl | rfl | rfl | rfl | rfl | rfl
  all_goals rfl

end Front

end WireSchema.Token
