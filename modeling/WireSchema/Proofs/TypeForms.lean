import WireSchema.Proofs.FieldTypes

/-! The forms in which a field type may be written; no text has two. -/

namespace WireSchema

namespace Text

def Blank (cs : List Char) : Prop := ∀ c ∈ cs, isBlank c = true

def Spaced (part : List Char → Prop) (cs : List Char) : Prop :=
  ∃ front piece back, cs = front ++ (piece ++ back) ∧ Blank front ∧ Blank back ∧ part piece

structure Trimmed (cs : List Char) : Prop where
  first : ∀ c ∈ cs.head?, isBlank c = false
  last : ∀ c ∈ cs.getLast?, isBlank c = false

variable {front piece back cs rest : List Char} {mark : Char}

theorem blank_takeWhile (cs : List Char) : Blank (cs.takeWhile isBlank) :=
  List.all_eq_true.mp List.all_takeWhile

theorem Blank.reverse (blank : Blank cs) : Blank cs.reverse :=
  fun c member => blank c (List.mem_reverse.mp member)

theorem Blank.append (first : Blank front) (second : Blank back) : Blank (front ++ back) :=
  fun c member => (List.mem_append.mp member).elim (first c) (second c)

theorem not_mem_of_blank (blank : Blank cs) (visible : isBlank mark = false) : mark ∉ cs := by
  intro member
  rw [blank mark member] at visible
  cases visible

theorem Trimmed.trim_eq (trimmed : Trimmed cs) : trim cs = cs :=
  trim_eq_self trimmed.first trimmed.last

theorem trimStart_append (blank : Blank front) (cs : List Char) :
    trimStart (front ++ cs) = trimStart cs :=
  List.dropWhile_append_of_pos blank

theorem trimEnd_append (blank : Blank back) (cs : List Char) :
    trimEnd (cs ++ back) = trimEnd cs := by
  rw [trimEnd, List.reverse_append, List.dropWhile_append_of_pos blank.reverse]
  rfl

theorem exists_trim (cs : List Char) :
    ∃ front back, cs = front ++ (trim cs ++ back) ∧ Blank front ∧ Blank back := by
  refine ⟨cs.takeWhile isBlank, ((trimStart cs).reverse.takeWhile isBlank).reverse, ?_,
    blank_takeWhile cs, (blank_takeWhile _).reverse⟩
  rw [trim, trimEnd, ← List.reverse_append, List.takeWhile_append_dropWhile, List.reverse_reverse]
  exact List.takeWhile_append_dropWhile.symm

theorem trimmed_trim (cs : List Char) : Trimmed (trim cs) := by
  have bare (l : List Char) : ∀ c ∈ (l.dropWhile isBlank).head?, isBlank c = false := by
    intro c head
    have first := List.head?_dropWhile_not isBlank l
    rw [Option.mem_def.mp head] at first
    exact first
  constructor
  · intro c head
    -- The first character that trimming the end leaves is the first that there was.
    obtain ⟨back, parts⟩ : ∃ back, trimStart cs = trim cs ++ back := by
      refine ⟨((trimStart cs).reverse.takeWhile isBlank).reverse, ?_⟩
      rw [trim, trimEnd, ← List.reverse_append, List.takeWhile_append_dropWhile,
        List.reverse_reverse]
    have head : c ∈ (trimStart cs).head? := by
      rw [parts, List.head?_append, Option.mem_def.mp head]
      rfl
    exact bare cs c head
  · intro c last
    rw [trim, trimEnd, List.getLast?_reverse] at last
    exact bare _ c last

theorem trim_spaced (blankFront : Blank front) (blankBack : Blank back) (trimmed : Trimmed piece) :
    trim (front ++ (piece ++ back)) = piece := by
  have start : trimStart (front ++ (piece ++ back)) = trimStart (piece ++ back) :=
    trimStart_append blankFront _
  cases piece with
  | nil =>
    rw [trim, start, List.nil_append, ← List.append_nil back, trimStart_append blankBack]
    rfl
  | cons c piece =>
    have visible : trimStart (c :: piece ++ back) = c :: piece ++ back :=
      trimStart_eq_self fun d head => trimmed.first d head
    rw [trim, start, visible, trimEnd_append blankBack, trimEnd_eq_self trimmed.last]

theorem trimmed_of_visible (visible : ∀ c ∈ cs, isBlank c = false) : Trimmed cs where
  first c head := visible c (List.mem_of_head? head)
  last c last := visible c (List.mem_of_getLast? last)

/-- A part without white space is what trimming leaves. -/
theorem spaced_iff_trim {part : List Char → Prop}
    (visible : ∀ {piece}, part piece → ∀ c ∈ piece, isBlank c = false) :
    Spaced part cs ↔ part (trim cs) := by
  constructor
  · rintro ⟨front, piece, back, rfl, blankFront, blankBack, holds⟩
    rwa [trim_spaced blankFront blankBack (trimmed_of_visible (visible holds))]
  · intro holds
    obtain ⟨front, back, parts, blankFront, blankBack⟩ := exists_trim cs
    exact ⟨front, trim cs, back, parts, blankFront, blankBack, holds⟩

theorem decimal?_eq_some_iff {n : Nat} :
    decimal? cs = some n ↔
      cs ≠ [] ∧ (∀ c ∈ cs, c.isDigit = true) ∧ Nat.ofDigitChars 10 cs 0 = n := by
  have value : Nat.ofDigitChars 10 cs 0 = cs.foldl (fun n c => 10 * n + (c.toNat - 48)) 0 := rfl
  rw [decimal?, value]
  cases cs with
  | nil => simp
  | cons c cs => simp

theorem dropLast?_eq_some_iff : dropLast? mark cs = some rest ↔ cs = rest ++ [mark] := by
  constructor
  · intro found
    rw [dropLast?, Option.ite_none_right_eq_some, Option.some.injEq] at found
    rw [← found.2, List.dropLast_append_getLast? mark found.1]
  · rintro rfl
    exact dropLast?_append mark rest

theorem cutAt?_eq_some_iff : cutAt? mark cs = some (front, back) ↔
    cs = front ++ mark :: back ∧ mark ∉ front := by
  constructor
  · intro found
    induction cs generalizing front with
    | nil => cases found
    | cons c cs ih =>
      rw [cutAt?] at found
      split at found
      · rename_i same
        cases found
        exact ⟨by rw [same]; rfl, List.not_mem_nil⟩
      · rename_i differs
        obtain ⟨⟨before, after⟩, cut, same⟩ := Option.map_eq_some_iff.mp found
        cases same
        obtain ⟨rfl, apart⟩ := ih cut
        refine ⟨rfl, ?_⟩
        rw [List.mem_cons, not_or]
        exact ⟨Ne.symm differs, apart⟩
  · rintro ⟨rfl, apart⟩
    exact cutAt?_append apart back

/-- Of two different marks one comes first. -/
theorem append_ne_append {other : Char} {front' back' : List Char} (differs : mark ≠ other)
    (apart : other ∉ front) (apart' : mark ∉ front') :
    front ++ mark :: back ≠ front' ++ other :: back' := by
  intro same
  rcases List.append_eq_append_iff.mp same with ⟨more, rfl, rest⟩ | ⟨more, rfl, rest⟩
  · cases more with
    | nil => exact differs (List.cons.inj rest).1
    | cons c more =>
      rw [(List.cons.inj rest).1] at apart'
      exact apart' (by simp)
  · cases more with
    | nil => exact differs (List.cons.inj rest).1.symm
    | cons c more =>
      rw [(List.cons.inj rest).1] at apart
      exact apart (by simp)

end Text

namespace FieldType

open Text

def Names (element : TypeRef) (word : List Char) : Prop :=
  isIdentifier (String.ofList word) = true ∧ element = .ofName (String.ofList word)

/-- A length as a schema file may have it: without its underscores it is decimal digits, perhaps
behind a plus sign. -/
def Counts (length : Nat) (numeral : List Char) : Prop :=
  ∃ digits, digits ≠ [] ∧ (∀ c ∈ digits, c.isDigit = true) ∧
    (numeral.filter (· != '_') = digits ∨ numeral.filter (· != '_') = '+' :: digits) ∧
    Nat.ofDigitChars 10 digits 0 = length ∧ length < wordLimit

/-- `T`, `[T; N]`, `T[N]`, `T[]` and `sequence<T>`. -/
inductive Form where
  | one
  | bracketed
  | suffixed
  | unbounded
  | sequence
  deriving DecidableEq, Repr

/-- A text of a form, without white space around it, and the type that it writes. `counts` says
which lengths may be written, and how. -/
inductive Written (counts : Nat → List Char → Prop) : Form → List Char → FieldType → Prop
  | one {word : List Char} {element : TypeRef} (names : Names element word) :
    Written counts .one word ⟨element, .one⟩
  | bracketed {word numeral : List Char} {element : TypeRef} {length : Nat}
      (names : Spaced (Names element) word) (counted : Spaced (counts length) numeral) :
    Written counts .bracketed ('[' :: (word ++ ';' :: (numeral ++ [']']))) ⟨element, .array length⟩
  | suffixed {word numeral : List Char} {element : TypeRef} {length : Nat}
      (names : Spaced (Names element) word) (counted : Spaced (counts length) numeral) :
    Written counts .suffixed (word ++ '[' :: (numeral ++ [']'])) ⟨element, .array length⟩
  | unbounded {word blank : List Char} {element : TypeRef}
      (names : Spaced (Names element) word) (nothing : Blank blank) :
    Written counts .unbounded (word ++ '[' :: (blank ++ [']'])) ⟨element, .sequence⟩
  | sequence {word blank : List Char} {element : TypeRef} (nothing : Blank blank)
      (names : Spaced (Names element) word) :
    Written counts .sequence ("sequence".toList ++ (blank ++ '<' :: (word ++ ['>'])))
      ⟨element, .sequence⟩

theorem Written.imp {counts counts' : Nat → List Char → Prop} {form : Form} {cs : List Char}
    {type : FieldType}
    (implies : ∀ {length numeral}, counts length numeral → counts' length numeral)
    (written : Written counts form cs type) : Written counts' form cs type := by
  have spaced {length : Nat} {numeral : List Char} (counted : Spaced (counts length) numeral) :
      Spaced (counts' length) numeral := by
    obtain ⟨front, piece, back, same, blankFront, blankBack, holds⟩ := counted
    exact ⟨front, piece, back, same, blankFront, blankBack, implies holds⟩
  cases written with
  | one names => exact .one names
  | bracketed names counted => exact .bracketed names (spaced counted)
  | suffixed names counted => exact .suffixed names (spaced counted)
  | unbounded names nothing => exact .unbounded names nothing
  | sequence nothing names => exact .sequence nothing names

section Parts

variable {cs word numeral : List Char} {element : TypeRef} {length : Nat}

theorem Names.isWord (names : Names element word) : ∀ c ∈ word, isIdentifierRest c = true := by
  obtain ⟨c, cs, shape, start, rest⟩ := Token.exists_of_isIdentifier names.1
  rw [String.toList_ofList] at shape
  rw [shape, List.forall_mem_cons]
  exact ⟨Token.isIdentifierRest_iff.mpr (.inl start), List.all_eq_true.mp rest⟩

theorem Names.ne_nil (names : Names element word) : word ≠ [] := by
  obtain ⟨c, cs, shape, -⟩ := Token.exists_of_isIdentifier names.1
  rw [String.toList_ofList] at shape
  rw [shape]
  exact List.cons_ne_nil c cs

theorem Names.visible (names : Names element word) : ∀ c ∈ word, isBlank c = false :=
  fun c member => isBlank_identifier (names.isWord c member)

theorem Counts.parts (counts : Counts length numeral) :
    ∀ c ∈ numeral, Token.isDecimalPart c = true ∨ c = '+' := by
  obtain ⟨digits, -, decimal, kept, -⟩ := counts
  intro c member
  by_cases underscore : c = '_'
  · rw [underscore]
    exact .inl rfl
  · have left : c ∈ numeral.filter (· != '_') :=
      List.mem_filter.mpr ⟨member, bne_iff_ne.mpr underscore⟩
    have digit (d : c ∈ digits) : Token.isDecimalPart c = true := by
      rw [Token.isDecimalPart, decimal c d, Bool.true_or]
    rcases kept with kept | kept <;> rw [kept] at left
    · exact .inl (digit left)
    · exact (List.mem_cons.mp left).symm.imp digit id

theorem Counts.visible (counts : Counts length numeral) : ∀ c ∈ numeral, isBlank c = false := by
  intro c member
  rcases counts.parts c member with part | rfl
  · exact isBlank_identifier (Token.isIdentifierRest_of_isDecimalPart part)
  · rfl

theorem Counts.ne_nil (counts : Counts length numeral) : numeral ≠ [] := by
  rintro rfl
  obtain ⟨digits, nonempty, -, kept, -⟩ := counts
  rcases kept with kept | kept
  · exact nonempty kept.symm
  · cases kept

theorem element?_eq_some_iff : element? cs = some element ↔ Spaced (Names element) cs := by
  rw [spaced_iff_trim Names.visible, element?, Names, Option.ite_none_right_eq_some,
    Option.some.injEq, eq_comm (a := element)]

theorem length?_eq_some_iff : length? cs = some length ↔ Spaced (Counts length) cs := by
  rw [spaced_iff_trim Counts.visible, length?, Counts]
  generalize (trim cs).filter (· != '_') = kept
  simp only [Option.bind_eq_bind, Option.bind_eq_some_iff, Option.ite_none_right_eq_some,
    Option.some.injEq, decimal?_eq_some_iff]
  constructor
  · rintro ⟨n, ⟨nonempty, decimal, value⟩, small, rfl⟩
    refine ⟨_, nonempty, decimal, ?_, value, small⟩
    cases front : dropFront? ['+'] kept with
    | none => exact .inl rfl
    | some rest => exact .inr (Token.dropFront?_eq_some_iff.mp front)
  · rintro ⟨digits, nonempty, decimal, rfl | rfl, value, small⟩
    · have unsigned : dropFront? ['+'] kept = none :=
        dropFront?_eq_none fun plus => absurd (decimal '+' plus) (by decide)
      rw [unsigned]
      exact ⟨length, ⟨nonempty, decimal, value⟩, small, rfl⟩
    · exact ⟨length, ⟨nonempty, decimal, value⟩, small, rfl⟩

theorem sequenceBody?_eq_some_iff {body : List Char} : sequenceBody? cs = some body ↔
    ∃ blank, Blank blank ∧ cs = "sequence".toList ++ (blank ++ '<' :: body) := by
  simp only [sequenceBody?, Option.bind_eq_bind, Option.bind_eq_some_iff,
    Token.dropFront?_eq_some_iff, List.singleton_append]
  constructor
  · rintro ⟨rest, rfl, opened⟩
    have parts : rest.takeWhile isBlank ++ trimStart rest = rest :=
      List.takeWhile_append_dropWhile
    exact ⟨_, blank_takeWhile rest, by rw [← opened, parts]⟩
  · rintro ⟨blank, nothing, rfl⟩
    exact ⟨_, rfl, (trimStart_append nothing _).trans rfl⟩

end Parts

section Reads

variable {cs : List Char} {form : Form} {type : FieldType}

theorem isEmpty_eq_false_of_written (written : Written Counts form cs type) :
    cs.isEmpty = false := by
  rw [List.isEmpty_eq_false_iff]
  cases written with
  | one names => exact names.ne_nil
  | _ => simp

/-- What the marks of a type are not part of. -/
theorem not_mem_of_names {element : TypeRef} {word : List Char} {mark : Char}
    (names : Spaced (Names element) word) (visible : isBlank mark = false)
    (apart : isIdentifierRest mark = false) : mark ∉ word := by
  obtain ⟨front, piece, back, rfl, blankFront, blankBack, names⟩ := names
  simp only [List.mem_append, not_or]
  refine ⟨not_mem_of_blank blankFront visible, fun member => ?_, not_mem_of_blank blankBack visible⟩
  rw [names.isWord mark member] at apart
  cases apart

/-- In front of `[` there is no `sequence<`. -/
theorem sequenceBody?_suffixed {element : TypeRef} {word : List Char}
    (names : Spaced (Names element) word) (rest : List Char) :
    sequenceBody? (word ++ '[' :: rest) = none := by
  cases found : sequenceBody? (word ++ '[' :: rest) with
  | none => rfl
  | some body =>
    obtain ⟨blank, nothing, same⟩ := sequenceBody?_eq_some_iff.mp found
    have angle : '<' ∉ word := not_mem_of_names names (by decide) (by decide)
    have square : '[' ∉ "sequence".toList ++ blank := by
      rw [List.mem_append, not_or]
      exact ⟨by decide, not_mem_of_blank nothing (by decide)⟩
    rw [← List.append_assoc] at same
    exact (append_ne_append (by decide) angle square same).elim

theorem dropFront?_suffixed {element : TypeRef} {word : List Char}
    (names : Spaced (Names element) word) (rest : List Char) :
    dropFront? ['['] (word ++ '[' :: rest) = none := by
  have apart : '[' ∉ word := not_mem_of_names names (by decide) (by decide)
  cases word with
  | nil =>
    obtain ⟨front, piece, back, parts, -, -, names⟩ := names
    simp [names.ne_nil] at parts
  | cons c word =>
    rw [List.mem_cons, not_or] at apart
    exact if_neg apart.1

/-- A text of any form is read as what it writes. -/
theorem ofChars?_of_written (written : Written Counts form cs type) : ofChars? cs = .ok type := by
  have filled := isEmpty_eq_false_of_written written
  cases written with
  | one names =>
    have word := names.isWord
    have opened : dropFront? ['['] cs = none :=
      dropFront?_eq_none fun mark => absurd (word '[' mark) (by decide)
    have closed : dropLast? ']' cs = none :=
      dropLast?_eq_none fun mark => absurd (word ']' mark) (by decide)
    have named := element?_eq_some_iff.mpr ((spaced_iff_trim Names.visible).mpr
      (by rwa [(trimmed_of_visible names.visible).trim_eq]))
    simp only [ofChars?, filled, sequenceBody?_word word, opened, closed, named]
    rfl
  | @bracketed word numeral element length names counts =>
    have apart : ';' ∉ word := not_mem_of_names names (by decide) (by decide)
    have plain (rest : List Char) : sequenceBody? ('[' :: rest) = none := rfl
    have opened (rest : List Char) : dropFront? ['['] ('[' :: rest) = some rest := rfl
    have closed : dropLast? ']' (word ++ ';' :: (numeral ++ [']'])) =
        some (word ++ ';' :: numeral) :=
      dropLast?_eq_some_iff.mpr (by simp)
    simp only [ofChars?, filled, plain, opened, closed, Option.bind_some, cutAt?_append apart,
      element?_eq_some_iff.mpr names, length?_eq_some_iff.mpr counts]
    rfl
  | @suffixed word numeral element length names counts =>
    have apart : '[' ∉ word := not_mem_of_names names (by decide) (by decide)
    have closed : dropLast? ']' (word ++ '[' :: (numeral ++ [']'])) =
        some (word ++ '[' :: numeral) :=
      dropLast?_eq_some_iff.mpr (by simp)
    have nonempty : (trim numeral).isEmpty = false :=
      List.isEmpty_eq_false_iff.mpr ((spaced_iff_trim Counts.visible).mp counts).ne_nil
    simp only [ofChars?, filled, sequenceBody?_suffixed names, dropFront?_suffixed names, closed,
      cutAt?_append apart, element?_eq_some_iff.mpr names, nonempty,
      length?_eq_some_iff.mpr counts]
    rfl
  | @unbounded word blank element names nothing =>
    have apart : '[' ∉ word := not_mem_of_names names (by decide) (by decide)
    have closed : dropLast? ']' (word ++ '[' :: (blank ++ [']'])) =
        some (word ++ '[' :: blank) :=
      dropLast?_eq_some_iff.mpr (by simp)
    have empty : (trim blank).isEmpty = true := by
      have trimmed : trim (blank ++ ([] ++ [])) = [] :=
        trim_spaced nothing (List.forall_mem_nil _) (trimmed_of_visible (List.forall_mem_nil _))
      rw [List.append_nil, List.append_nil] at trimmed
      rw [trimmed]
      rfl
    simp only [ofChars?, filled, sequenceBody?_suffixed names, dropFront?_suffixed names, closed,
      cutAt?_append apart, element?_eq_some_iff.mpr names, empty]
    rfl
  | @sequence word blank element nothing names =>
    have body : sequenceBody? ("sequence".toList ++ (blank ++ '<' :: (word ++ ['>']))) =
        some (word ++ ['>']) :=
      sequenceBody?_eq_some_iff.mpr ⟨blank, nothing, rfl⟩
    simp only [ofChars?, filled, body, dropLast?_append, element?_eq_some_iff.mpr names]
    rfl

theorem blank_of_trim {cs : List Char} (empty : (trim cs).isEmpty = true) : Blank cs := by
  obtain ⟨front, back, parts, blankFront, blankBack⟩ := exists_trim cs
  rw [List.isEmpty_iff.mp empty, List.nil_append] at parts
  rw [parts]
  exact blankFront.append blankBack

/-- And a text that is read has a form. -/
theorem written_of_ofChars? (trimmed : Trimmed cs) (read : ofChars? cs = .ok type) :
    ∃ form, Written Counts form cs type := by
  simp only [ofChars?, bind, Except.bind, throw, throwThe, MonadExceptOf.throw, pure,
    Except.pure] at read
  repeat' split at read
  all_goals try cases read
  -- What is left, in this order: `sequence<T>`, `[T; N]`, `T[]`, `T[N]`, `T`.
  · rename_i body opened _ inner closed _ element named
    obtain ⟨blank, nothing, rfl⟩ := sequenceBody?_eq_some_iff.mp opened
    obtain rfl := dropLast?_eq_some_iff.mp closed
    exact ⟨_, .sequence nothing (element?_eq_some_iff.mp named)⟩
  · rename_i inner opened _ word numeral cut _ element named _ length counted
    obtain ⟨body, closed, split⟩ := Option.bind_eq_some_iff.mp cut
    obtain rfl := Token.dropFront?_eq_some_iff.mp opened
    obtain rfl := dropLast?_eq_some_iff.mp closed
    obtain ⟨rfl, -⟩ := cutAt?_eq_some_iff.mp split
    rw [List.append_assoc]
    exact ⟨_, .bracketed (element?_eq_some_iff.mp named) (length?_eq_some_iff.mp counted)⟩
  · rename_i body closed _ word blank cut _ element named empty
    obtain rfl := dropLast?_eq_some_iff.mp closed
    obtain ⟨rfl, -⟩ := cutAt?_eq_some_iff.mp cut
    rw [List.append_assoc]
    exact ⟨_, .unbounded (element?_eq_some_iff.mp named) (blank_of_trim empty)⟩
  · rename_i body closed _ word numeral cut _ element named _ _ length counted
    obtain rfl := dropLast?_eq_some_iff.mp closed
    obtain ⟨rfl, -⟩ := cutAt?_eq_some_iff.mp cut
    rw [List.append_assoc]
    exact ⟨_, .suffixed (element?_eq_some_iff.mp named) (length?_eq_some_iff.mp counted)⟩
  · rename_i element named
    have names := (spaced_iff_trim Names.visible).mp (element?_eq_some_iff.mp named)
    rw [trimmed.trim_eq] at names
    exact ⟨_, .one names⟩

theorem ofChars?_eq_ok_iff (trimmed : Trimmed cs) :
    ofChars? cs = .ok type ↔ ∃ form, Written Counts form cs type :=
  ⟨written_of_ofChars? trimmed, fun ⟨_, written⟩ => ofChars?_of_written written⟩

def formOf (cs : List Char) : Cardinality → Form
  | .one => .one
  | .array _ => if cs.head? = some '[' then .bracketed else .suffixed
  | .sequence => if cs.getLast? = some '>' then .sequence else .unbounded

theorem form_eq_of_written (written : Written Counts form cs type) :
    form = formOf cs type.cardinality := by
  cases written with
  | one => rfl
  | bracketed => rfl
  | @suffixed word numeral element length names counts =>
    have apart : (word ++ '[' :: (numeral ++ [']'])).head? ≠ some '[' := by
      intro first
      obtain ⟨rest, same⟩ := List.head?_eq_some_iff.mp first
      have opened := dropFront?_suffixed names (numeral ++ [']'])
      rw [same] at opened
      cases opened
    exact (if_neg apart).symm
  | unbounded =>
    refine (if_neg ?_).symm
    simp [List.getLast?_append, List.getLast?_cons]
  | sequence =>
    refine (if_pos ?_).symm
    simp [List.getLast?_append, List.getLast?_cons]

/-- A text has one form and writes one type. -/
theorem written_unique {form' : Form} {type' : FieldType} (written : Written Counts form cs type)
    (written' : Written Counts form' cs type') : form = form' ∧ type = type' := by
  have same : type = type' := Except.ok.inj
    ((ofChars?_of_written written).symm.trans (ofChars?_of_written written'))
  subst same
  exact ⟨(form_eq_of_written written).trans (form_eq_of_written written').symm, rfl⟩

end Reads

theorem parse_eq_ok_iff {text : String} {type : FieldType} :
    parse text = .ok type ↔ ∃ form, Written Counts form (trim text.toList) type := by
  rw [← ofChars?_eq_ok_iff (trimmed_trim text.toList), parse]
  cases ofChars? (trim text.toList) <;> simp

theorem parse_refuses {text : String} (refused : ∀ type, parse text ≠ .ok type) :
    ∃ why, parse text = .error (.invalidTypeSyntax text why) := by
  cases read : ofChars? (trim text.toList) with
  | ok type => exact (refused type (by rw [parse, read])).elim
  | error why => exact ⟨why, by rw [parse, read]⟩

/-- A base type, or a name that a schema may declare and that does not stand for a base type. -/
def Own (element : TypeRef) : Prop :=
  ∀ name, element = .named name → isIdentifier name = true ∧ BaseType.ofSpelling? name = none

theorem legible_of_own {element : TypeRef} (own : Own element) : Table.Legible element := by
  cases element with
  | base type => exact Table.legible_base type
  | named name =>
    obtain ⟨valid, unreserved⟩ := own name rfl
    exact Table.legible_named valid unreserved

/-- Without the white space around it, a text is read as a type exactly if it has one of the forms,
of which it has only one; any other text is answered with an error that has the text itself. The
text of a type whose element is its own is read as that type. -/
theorem parse_accepts_forms :
    (∀ text type, parse text = .ok type ↔ ∃ form, Written Counts form (trim text.toList) type) ∧
    (∀ cs form form' type type', Written Counts form cs type → Written Counts form' cs type' →
      form = form' ∧ type = type') ∧
    (∀ text, (∀ form type, ¬ Written Counts form (trim text.toList) type) →
      ∃ why, parse text = .error (.invalidTypeSyntax text why)) ∧
    ∀ type : FieldType, Own type.element →
      (∀ length, type.cardinality = .array length → length < wordLimit) →
      parse type.text = .ok type := by
  refine ⟨fun text type => parse_eq_ok_iff, fun cs form form' type type' => written_unique,
    fun text formless => ?_, fun type own word => ?_⟩
  · apply parse_refuses
    intro type read
    obtain ⟨form, written⟩ := parse_eq_ok_iff.mp read
    exact formless form type written
  · exact parse_text ⟨legible_of_own own, word⟩

theorem own_sequence : Own (.named "sequence") := by
  rintro name ⟨⟩
  decide +kernel

theorem parse_accepts_forms_sample :
    (∃ form, Written Counts form "[ Time ; +1_0 ]".toList ⟨.named "Time", .array 10⟩ ∧
      ∀ form' type, Written Counts form' "[ Time ; +1_0 ]".toList type → form' = form) ∧
    (∃ why, parse " T[2][3]" = .error (.invalidTypeSyntax " T[2][3]" why)) ∧
    parse "sequence<sequence>" = .ok ⟨.named "sequence", .sequence⟩ := by
  obtain ⟨reads, unique, refuses, back⟩ := parse_accepts_forms
  refine ⟨?_, ?_, back ⟨.named "sequence", .sequence⟩ own_sequence nofun⟩
  · obtain ⟨form, written⟩ :=
      (reads "\n[ Time ; +1_0 ] " ⟨.named "Time", .array 10⟩).mp (by decide +kernel)
    have trimmed : trim "\n[ Time ; +1_0 ] ".toList = "[ Time ; +1_0 ]".toList := by
      decide +kernel
    rw [trimmed] at written
    exact ⟨form, written, fun form' type written' => (unique _ _ _ _ _ written' written).1⟩
  · apply refuses
    intro form type written
    have read := (reads " T[2][3]" type).mpr ⟨form, written⟩
    have wrong : parse " T[2][3]" = .error (.invalidTypeSyntax " T[2][3]" .length) := by
      decide +kernel
    rw [wrong] at read
    cases read

end FieldType

end WireSchema
