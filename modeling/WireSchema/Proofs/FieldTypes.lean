import WireSchema.Proofs.Rendering

/-! Field types and their texts. -/

namespace WireSchema

namespace Text

variable {cs : List Char}

theorem trimStart_eq_self (front : ∀ c ∈ cs.head?, isBlank c = false) : trimStart cs = cs := by
  cases cs with
  | nil => rfl
  | cons c rest => exact List.dropWhile_cons_of_neg (by simp [front c rfl])

theorem trimEnd_eq_self (last : ∀ c ∈ cs.getLast?, isBlank c = false) : trimEnd cs = cs := by
  have reversed : cs.reverse.dropWhile isBlank = cs.reverse :=
    trimStart_eq_self (by rwa [List.head?_reverse])
  rw [trimEnd, reversed, List.reverse_reverse]

theorem trim_eq_self (front : ∀ c ∈ cs.head?, isBlank c = false)
    (last : ∀ c ∈ cs.getLast?, isBlank c = false) : trim cs = cs := by
  rw [trim, trimStart_eq_self front, trimEnd_eq_self last]

theorem isBlank_identifier {c : Char} (part : isIdentifierRest c = true) : isBlank c = false := by
  have range : 48 ≤ c.toNat ∧ c.toNat ≤ 122 := by
    rcases Token.isIdentifierRest_iff.mp part with start | digit
    · have := Token.isIdentifierStart_iff.mp start
      omega
    · omega
  simp only [isBlank, Bool.or_eq_false_iff, Bool.and_eq_false_iff, decide_eq_false_iff_not,
    beq_eq_false_iff_ne]
  omega

theorem trim_word (word : ∀ c ∈ cs, isIdentifierRest c = true) : trim cs = cs := by
  apply trim_eq_self
  · exact fun c head => isBlank_identifier (word c (List.mem_of_head? head))
  · exact fun c last => isBlank_identifier (word c (List.mem_of_getLast? last))

theorem decimal?_toDigits (n : Nat) : decimal? (Nat.toDigits 10 n) = some n := by
  have digits : (Nat.toDigits 10 n).all Char.isDigit = true :=
    List.all_eq_true.mpr (Token.isDigit_toDigits n)
  have nonempty : (Nat.toDigits 10 n).isEmpty = false :=
    List.isEmpty_eq_false_iff.mpr Nat.toDigits_ne_nil
  rw [decimal?, digits, nonempty]
  exact congrArg some (Nat.ofDigitChars_toDigits (by decide) (by decide))

theorem cutAt?_append {mark : Char} (apart : mark ∉ cs) (rest : List Char) :
    cutAt? mark (cs ++ mark :: rest) = some (cs, rest) := by
  induction cs with
  | nil => simp [cutAt?]
  | cons c cs ih =>
    rw [List.mem_cons, not_or] at apart
    rw [List.cons_append, cutAt?, if_neg (Ne.symm apart.1), ih apart.2]
    rfl

theorem dropFront?_eq_none {first : Char} (apart : first ∉ cs) : dropFront? [first] cs = none := by
  cases front : dropFront? [first] cs with
  | none => rfl
  | some rest =>
    rw [Token.dropFront?_eq_some_iff.mp front] at apart
    exact (apart List.mem_cons_self).elim

theorem dropLast?_append (last : Char) (cs : List Char) :
    dropLast? last (cs ++ [last]) = some cs := by
  simp [dropLast?]

theorem dropLast?_eq_none {last : Char} (apart : last ∉ cs) : dropLast? last cs = none :=
  if_neg fun ends => apart (List.mem_of_getLast? ends)

end Text

namespace FieldType

variable {cs : List Char} {element : TypeRef}

/-- A type whose text says what it is. -/
structure Readable (type : FieldType) : Prop where
  element : Table.Legible type.element
  word : ∀ length, type.cardinality = .array length → length < wordLimit

theorem word_text (legible : Table.Legible element) :
    ∀ c ∈ element.text.toList, isIdentifierRest c = true := by
  obtain ⟨c, cs, shape, start, word⟩ := Token.exists_of_isIdentifier legible.valid
  rw [shape, List.forall_mem_cons]
  exact ⟨Token.isIdentifierRest_iff.mpr (.inl start), List.all_eq_true.mp word⟩

theorem text_ne_nil (legible : Table.Legible element) : element.text.toList ≠ [] := by
  obtain ⟨c, cs, shape, -⟩ := Token.exists_of_isIdentifier legible.valid
  rw [shape]
  exact List.cons_ne_nil c cs

theorem not_mem_text (legible : Table.Legible element) {c : Char}
    (mark : isIdentifierRest c = false) : c ∉ element.text.toList := by
  intro member
  rw [word_text legible c member] at mark
  cases mark

theorem element?_text (legible : Table.Legible element) :
    element? element.text.toList = some element := by
  rw [element?, Text.trim_word (word_text legible), String.ofList_toList]
  simp only [legible.valid, if_true, legible.reread]

theorem length?_toDigits {n : Nat} (small : n < wordLimit) :
    length? (' ' :: Nat.toDigits 10 n) = some n := by
  have word : ∀ c ∈ Nat.toDigits 10 n, isIdentifierRest c = true := fun c member =>
    Table.isIdentifierRest_of_mem_toDigits (by decide) (by decide) member
  have digits := Token.isDigit_toDigits n
  have trimmed : Text.trim (' ' :: Nat.toDigits 10 n) = Nat.toDigits 10 n :=
    Text.trim_word word
  have kept : (Nat.toDigits 10 n).filter (· != '_') = Nat.toDigits 10 n := by
    rw [List.filter_eq_self]
    intro c member
    have digit := digits c member
    rw [bne_iff_ne]
    rintro rfl
    exact absurd digit (by decide)
  have unsigned : Text.dropFront? ['+'] (Nat.toDigits 10 n) = none :=
    Text.dropFront?_eq_none fun plus => absurd (digits '+' plus) (by decide)
  simp [length?, trimmed, kept, unsigned, Text.decimal?_toDigits, small]

theorem sequenceBody?_word (word : ∀ c ∈ cs, isIdentifierRest c = true) :
    sequenceBody? cs = none := by
  cases front : Text.dropFront? "sequence".toList cs with
  | none => simp only [sequenceBody?, front, Option.bind_eq_bind, Option.bind_none]
  | some rest =>
    have inside : ∀ c ∈ rest, isIdentifierRest c = true := by
      rw [Token.dropFront?_eq_some_iff.mp front, List.forall_mem_append] at word
      exact word.2
    have plain : Text.trimStart rest = rest := Text.trimStart_eq_self fun c head =>
      Text.isBlank_identifier (inside c (List.mem_of_head? head))
    have unopened : Text.dropFront? ['<'] rest = none :=
      Text.dropFront?_eq_none fun mark => absurd (inside '<' mark) (by decide)
    simp only [sequenceBody?, front, Option.bind_eq_bind, Option.bind_some, plain, unopened]

theorem ofChars?_one (legible : Table.Legible element) :
    ofChars? element.text.toList = .ok ⟨element, .one⟩ := by
  have nonempty := List.isEmpty_eq_false_iff.mpr (text_ne_nil legible)
  have opened : Text.dropFront? ['['] element.text.toList = none :=
    Text.dropFront?_eq_none (not_mem_text legible (by decide))
  have closed : Text.dropLast? ']' element.text.toList = none :=
    Text.dropLast?_eq_none (not_mem_text legible (by decide))
  simp [ofChars?, nonempty, sequenceBody?_word (word_text legible), opened, closed,
    element?_text legible]
  rfl

theorem ofChars?_sequence (legible : Table.Legible element) :
    ofChars? ("sequence<".toList ++ (element.text.toList ++ ['>'])) = .ok ⟨element, .sequence⟩ := by
  have body : sequenceBody? ("sequence<".toList ++ (element.text.toList ++ ['>'])) =
      some (element.text.toList ++ ['>']) := rfl
  have nonempty : ("sequence<".toList ++ (element.text.toList ++ ['>'])).isEmpty = false := rfl
  simp only [ofChars?, nonempty, body, Text.dropLast?_append, element?_text legible]
  rfl

theorem ofChars?_array (legible : Table.Legible element) {n : Nat} (small : n < wordLimit) :
    ofChars? ('[' :: (element.text.toList ++ ';' :: ' ' :: Nat.toDigits 10 n ++ [']'])) =
      .ok ⟨element, .array n⟩ := by
  have apart : ';' ∉ element.text.toList := not_mem_text legible (by decide)
  have plain (rest : List Char) : sequenceBody? ('[' :: rest) = none := rfl
  have opened (rest : List Char) : Text.dropFront? ['['] ('[' :: rest) = some rest := rfl
  simp only [ofChars?, plain, opened, List.isEmpty_cons, Text.dropLast?_append,
    Option.bind_some, Text.cutAt?_append apart, element?_text legible, length?_toDigits small]
  rfl

theorem parse_text {type : FieldType} (readable : type.Readable) :
    parse type.text = .ok type := by
  obtain ⟨element, cardinality⟩ := type
  have legible : Table.Legible element := readable.element
  have read : ofChars? (Text.trim (text ⟨element, cardinality⟩).toList) =
      .ok ⟨element, cardinality⟩ := by
    cases cardinality with
    | one => rw [text, Text.trim_word (word_text legible), ofChars?_one legible]
    | array length =>
      have shape : (text ⟨element, .array length⟩).toList =
          '[' :: (element.text.toList ++ ';' :: ' ' :: Nat.toDigits 10 length ++ [']']) := by
        simp [text]
      rw [shape, Text.trim_eq_self, ofChars?_array legible (readable.word length rfl)]
      · rintro c ⟨⟩
        decide
      · intro c last
        rw [← List.cons_append, List.getLast?_concat] at last
        cases last
        decide
    | sequence =>
      have shape : (text ⟨element, .sequence⟩).toList =
          "sequence<".toList ++ (element.text.toList ++ ['>']) := by
        simp [text]
      rw [shape, Text.trim_eq_self, ofChars?_sequence legible]
      · rintro c ⟨⟩
        decide
      · intro c last
        rw [← List.append_assoc, List.getLast?_concat] at last
        cases last
        decide
  rw [parse, read]

theorem legible_of_element? (read : element? cs = some element) : Table.Legible element := by
  simp only [element?, Option.ite_none_right_eq_some, Option.some.injEq] at read
  obtain ⟨valid, rfl⟩ := read
  rw [TypeRef.ofName]
  cases spelled : BaseType.ofSpelling? (String.ofList (Text.trim cs)) with
  | some type => exact Table.legible_base type
  | none => exact Table.legible_named valid spelled

theorem lt_of_length? {n : Nat} (read : length? cs = some n) : n < wordLimit := by
  simp only [length?, Option.bind_eq_bind, Option.bind_eq_some_iff,
    Option.ite_none_right_eq_some] at read
  obtain ⟨value, -, small, same⟩ := read
  cases same
  exact small

theorem readable_of_read {type : FieldType} (named : element? cs = some type.element)
    (counted : ∀ length, type.cardinality = .array length →
      ∃ digits, length? digits = some length) : type.Readable := by
  refine ⟨legible_of_element? named, fun length array => ?_⟩
  obtain ⟨digits, read⟩ := counted length array
  exact lt_of_length? read

theorem readable_of_ofChars? {type : FieldType} (read : ofChars? cs = .ok type) :
    type.Readable := by
  simp only [ofChars?, bind, Except.bind, throw, throwThe, MonadExceptOf.throw, pure,
    Except.pure] at read
  repeat' split at read
  all_goals try cases read
  -- What is left, in this order: `sequence<T>`, `[T; N]`, `T[]`, `T[N]`, `T`.
  · exact readable_of_read (by assumption) nofun
  · refine readable_of_read (by assumption) ?_
    rintro length ⟨⟩
    exact ⟨_, by assumption⟩
  · exact readable_of_read (by assumption) nofun
  · refine readable_of_read (by assumption) ?_
    rintro length ⟨⟩
    exact ⟨_, by assumption⟩
  · exact readable_of_read (by assumption) nofun

theorem readable_of_parse {type : FieldType} {text : String} (read : parse text = .ok type) :
    type.Readable := by
  rw [parse] at read
  split at read
  · rename_i found
    cases read
    exact readable_of_ofChars? found
  · cases read

end FieldType

end WireSchema
