import WireSchema.Proofs.TableDerivation
import WireSchema.Proofs.TypeForms

/-! Field types in a text and in its tokens. -/

namespace WireSchema

open Text

namespace Token

inductive Piece : Lexeme → List Char → List Char → Prop
  | word {word rest : List Char} (named : IsWord word) (separated : Separated rest) :
    Piece (.leaf (.word (.ofList word))) word rest
  | number {numeral rest : List Char} (digits : IsNumeral numeral) (separated : Separated rest) :
    Piece (.leaf (.literal (.integer (numeralValue numeral) ""))) numeral rest
  | mark {c : Char} {rest : List Char} (marked : c ∈ [';', '<', '>', '+']) :
    Piece (.leaf (.mark c (startsMark rest))) [c] rest
  | opening {rest : List Char} : Piece (.opening .square) ['['] rest
  | closing {rest : List Char} : Piece (.closing .square) [']'] rest

/-- A text that consists of such lexemes with white space between them. -/
inductive Spells : List Lexeme → List Char → Prop
  | nil {blank : List Char} (nothing : Blank blank) : Spells [] blank
  | cons {lexeme : Lexeme} {lexemes : List Lexeme} {front part rest : List Char}
      (blank : Blank front) (piece : Piece lexeme part rest) (spelt : Spells lexemes rest) :
      Spells (lexeme :: lexemes) (front ++ (part ++ rest))

section Scan

open Grouping

variable {front part rest cs : List Char} {lexeme : Lexeme} {lexemes : List Lexeme}

theorem separated_append (blank : Blank front) (separated : Separated rest) :
    Separated (front ++ rest) := by
  cases front with
  | nil => exact separated
  | cons c front =>
    rintro d ⟨⟩
    exact List.mem_append_right _ (mem_blanks (blank c List.mem_cons_self))

theorem next?_blank {c : Char} (blank : isBlank c = true) (rest : List Char) :
    next? (c :: rest) = some ([], rest) := by
  have slash : c ≠ '/' := by
    rintro rfl
    cases blank
  have space : isSpace c = true := by
    rw [isSpace, blank]
    rfl
  have trivia : skipTrivia? (c :: rest) = some rest := by
    unfold skipTrivia?
    split
    case h_10 shape =>
      obtain ⟨rfl, rfl⟩ := List.cons.inj shape
      exact if_pos space
    case h_11 shape => cases shape
    all_goals
      rename_i shape
      exact (slash (List.cons.inj shape).1).elim
  unfold next?
  rw [trivia]

theorem scan_blank (blank : Blank front) (rest : List Char) : scan (front ++ rest) = scan rest := by
  induction front with
  | nil => rfl
  | cons c front ih =>
    have found := next?_blank (blank c List.mem_cons_self) (front ++ rest)
    rw [List.cons_append, scan_of_next found (by simp),
      ih fun d member => blank d (List.mem_cons_of_mem _ member)]
    cases scan rest <;> rfl

theorem next?_piece (piece : Piece lexeme part rest) :
    next? (part ++ rest) = some ([lexeme], rest) ∧ part ≠ [] := by
  cases piece with
  | word named separated =>
    refine ⟨next?_isWord named separated, ?_⟩
    rintro rfl
    cases named.first
  | number digits separated =>
    refine ⟨next?_numeral digits separated, ?_⟩
    rintro rfl
    cases digits.first
  | mark marked =>
    simp only [List.mem_cons, List.not_mem_nil, or_false] at marked
    refine ⟨?_, List.cons_ne_nil _ _⟩
    rcases marked with rfl | rfl | rfl | rfl <;> rfl
  | opening => exact ⟨rfl, List.cons_ne_nil _ _⟩
  | closing => exact ⟨rfl, List.cons_ne_nil _ _⟩

theorem scan_of_spells (spells : Spells lexemes cs) : scan cs = some lexemes := by
  induction spells with
  | @nil blank nothing =>
    rw [← List.append_nil blank, scan_blank nothing, scan]
    rfl
  | cons blank piece spelt ih =>
    obtain ⟨found, nonempty⟩ := next?_piece piece
    rw [scan_blank blank, scan_of_next found (length_lt_append nonempty _), ih]
    rfl

/-- What a text begins with that spells a lexeme first. -/
theorem Spells.blank (spells : Spells [] cs) : Blank cs := by
  cases spells with
  | nil nothing => exact nothing

theorem Spells.word {name : String} (spells : Spells (.leaf (.word name) :: lexemes) cs) :
    ∃ front word rest, cs = front ++ (word ++ rest) ∧ Blank front ∧ IsWord word ∧
      name = .ofList word ∧ Spells lexemes rest := by
  cases spells with
  | cons blank piece spelt =>
    cases piece with
    | word named => exact ⟨_, _, _, rfl, blank, named, rfl, spelt⟩

theorem Spells.number {n : Nat} {suffix : String}
    (spells : Spells (.leaf (.literal (.integer n suffix)) :: lexemes) cs) :
    ∃ front numeral rest, cs = front ++ (numeral ++ rest) ∧ Blank front ∧ IsNumeral numeral ∧
      numeralValue numeral = n ∧ Spells lexemes rest := by
  cases spells with
  | cons blank piece spelt =>
    cases piece with
    | number digits => exact ⟨_, _, _, rfl, blank, digits, rfl, spelt⟩

theorem Spells.mark {c : Char} {joint : Bool}
    (spells : Spells (.leaf (.mark c joint) :: lexemes) cs) :
    ∃ front rest, cs = front ++ c :: rest ∧ Blank front ∧ Spells lexemes rest := by
  cases spells with
  | cons blank piece spelt =>
    cases piece with
    | mark => exact ⟨_, _, rfl, blank, spelt⟩

theorem Spells.opening (spells : Spells (.opening .square :: lexemes) cs) :
    ∃ front rest, cs = front ++ '[' :: rest ∧ Blank front ∧ Spells lexemes rest := by
  cases spells with
  | cons blank piece spelt =>
    cases piece with
    | opening => exact ⟨_, _, rfl, blank, spelt⟩

theorem Spells.closing (spells : Spells (.closing .square :: lexemes) cs) :
    ∃ front rest, cs = front ++ ']' :: rest ∧ Blank front ∧ Spells lexemes rest := by
  cases spells with
  | cons blank piece spelt =>
    cases piece with
    | closing => exact ⟨_, _, rfl, blank, spelt⟩

end Scan

section Nest

mutual

def lexemes : TokenTree → List Lexeme
  | .group bracket body => .opening bracket :: (bodyLexemes body ++ [.closing bracket])
  | token => [.leaf token]

def bodyLexemes : List TokenTree → List Lexeme
  | [] => []
  | token :: rest => lexemes token ++ bodyLexemes rest

end

def openLexemes : List (Bracket × List TokenTree) → List Lexeme
  | [] => []
  | (bracket, before) :: outer =>
    openLexemes outer ++ (bodyLexemes before.reverse ++ [.opening bracket])

def Flat (lexeme : Lexeme) : Prop := ∀ bracket body, lexeme ≠ .leaf (.group bracket body)

theorem bodyLexemes_append (front back : List TokenTree) :
    bodyLexemes (front ++ back) = bodyLexemes front ++ bodyLexemes back := by
  induction front with
  | nil => rfl
  | cons token front ih => rw [List.cons_append, bodyLexemes, bodyLexemes, ih, List.append_assoc]

theorem lexemes_leaf {token : TokenTree} (flat : Flat (.leaf token)) :
    lexemes token = [.leaf token] := by
  cases token with
  | group bracket body => exact (flat bracket body rfl).elim
  | _ => rfl

/-- Grouping keeps all lexemes, so that the tokens say which they were. -/
theorem bodyLexemes_of_nest {outer : List (Bracket × List TokenTree)}
    {inner tokens : List TokenTree} {all : List Lexeme} (flat : ∀ lexeme ∈ all, Flat lexeme)
    (nested : nest outer inner all = some tokens) :
    openLexemes outer ++ (bodyLexemes inner.reverse ++ all) = bodyLexemes tokens := by
  induction all generalizing outer inner with
  | nil =>
    cases outer with
    | nil =>
      cases nested
      simp [openLexemes]
    | cons => cases nested
  | cons lexeme all ih =>
    rw [List.forall_mem_cons] at flat
    cases lexeme with
    | leaf token =>
      rw [← ih flat.2 nested]
      simp [bodyLexemes_append, bodyLexemes, lexemes_leaf flat.1]
    | opening bracket =>
      rw [← ih flat.2 nested]
      simp [openLexemes, bodyLexemes]
    | closing bracket =>
      cases outer with
      | nil => cases nested
      | cons innermost outer =>
        obtain ⟨opened, before⟩ := innermost
        rw [nest] at nested
        split at nested
        · rename_i same
          rw [← ih flat.2 nested]
          simp [openLexemes, bodyLexemes_append, bodyLexemes, lexemes, same]
        · cases nested

theorem flat_of_piece {lexeme : Lexeme} {part rest : List Char} (piece : Piece lexeme part rest) :
    Flat lexeme := by
  cases piece <;> exact fun _ _ => nofun

theorem flat_of_spells {all : List Lexeme} {cs : List Char} (spells : Spells all cs) :
    ∀ lexeme ∈ all, Flat lexeme := by
  induction spells with
  | nil => exact List.forall_mem_nil _
  | cons _ piece _ ih => exact List.forall_mem_cons.mpr ⟨flat_of_piece piece, ih⟩

/-- A byte order mark is none of the lexemes of a type. -/
theorem head?_of_spells {all : List Lexeme} {cs : List Char} (spells : Spells all cs) :
    cs.head? ≠ some '\ufeff' := by
  cases spells with
  | nil nothing => exact fun first => absurd (nothing _ (List.mem_of_head? first)) (by decide)
  | @cons _ _ front part rest blank piece =>
    cases front with
    | cons c front =>
      rintro ⟨⟩
      exact absurd (blank _ List.mem_cons_self) (by decide)
    | nil =>
      cases piece with
      | word named =>
        cases part with
        | nil => cases named.first
        | cons c part =>
          have start : isIdentifierStart c = true := named.first
          rintro ⟨⟩
          exact absurd start (by decide)
      | number digits =>
        cases part with
        | nil => cases digits.first
        | cons c part =>
          have start : c.isDigit = true := digits.first
          rintro ⟨⟩
          exact absurd start (by decide)
      | mark marked =>
        rintro ⟨⟩
        exact absurd marked (by decide)
      | opening => nofun
      | closing => nofun

theorem tokens?_of_spells {all : List Lexeme} {text : String} (spells : Spells all text.toList) :
    tokens? text = nest [] [] all := by
  rw [Grouping.tokens?_eq_read (head?_of_spells spells), Grouping.read, scan_of_spells spells]
  rfl

end Nest

end Token

namespace Table

open Token Grammar

/-- All tokens of a text are read as the type of a field. -/
def ReadsFieldType (text : String) (type : FieldType) : Prop :=
  ∃ tokens, Token.tokens? text = some tokens ∧
    Parse.fieldType.run ⟨tokens, none⟩ = .ok (type, ⟨[], none⟩)

theorem readsFieldType_iff {text : String} {type : FieldType} : ReadsFieldType text type ↔
    ∃ tokens, Token.tokens? text = some tokens ∧ IsFieldType tokens type := by
  constructor
  · rintro ⟨tokens, found, read⟩
    obtain ⟨block, same, typed⟩ := Parse.isFieldType_of_run_fieldType read rfl
    rw [List.append_nil] at same
    cases same
    exact ⟨tokens, found, typed⟩
  · rintro ⟨tokens, found, typed⟩
    have read := Parse.run_fieldType_of_isFieldType typed .finished
    rw [List.append_nil] at read
    exact ⟨tokens, found, read⟩

end Table

namespace FieldType

open Token Table Table.Grammar

def Decimal (length : Nat) (numeral : List Char) : Prop :=
  IsNumeral numeral ∧ numeralValue numeral = length ∧ length < wordLimit

theorem counts_of_decimal {length : Nat} {numeral : List Char} (decimal : Decimal length numeral) :
    Counts length numeral := by
  obtain ⟨⟨first, digits⟩, value, small⟩ := decimal
  refine ⟨numeral.filter (· != '_'), ?_, ?_, .inl rfl, value, small⟩
  · cases numeral with
    | nil => cases first
    | cons d numeral =>
      have digit : d.isDigit = true := first
      have underscore : d ≠ '_' := by
        rintro rfl
        cases digit
      rw [List.filter_cons_of_pos (by simpa using underscore)]
      exact List.cons_ne_nil _ _
  · intro c member
    obtain ⟨member, underscore⟩ := List.mem_filter.mp member
    have part := digits c member
    rw [isDecimalPart, Bool.or_eq_true] at part
    exact part.resolve_right (by simpa using underscore)

theorem isWord_of_names {element : TypeRef} {word : List Char} (names : Names element word) :
    IsWord word := by
  have named := isWord_of_isIdentifier names.1
  rwa [String.toList_ofList] at named

theorem isName_of_names {element : TypeRef} {word : List Char} (names : Names element word) :
    isName (.ofList word) = true :=
  Table.Parse.isName_of_isIdentifier names.1

theorem names_of_isWord {word : List Char} (named : IsWord word)
    (name : isName (.ofList word) = true) : Names (.ofName (.ofList word)) word := by
  refine ⟨?_, rfl⟩
  obtain ⟨first, parts⟩ := named
  rw [isName, Bool.and_eq_true] at name
  cases word with
  | nil => cases first
  | cons c word =>
    have start : isIdentifierStart c = true := first
    rw [List.all_cons, Bool.and_eq_true] at parts
    simp only [isIdentifier, String.toList_ofList, start, parts.2, name.1, name.2]
    rfl

section Reads

variable {form : Form} {cs front piece back : List Char} {type : FieldType}

/-- A text of a form, with white space around it, spells the tokens of its type. -/
theorem spells_of_written (written : Written Decimal form piece type) (blankFront : Blank front)
    (blankBack : Blank back) :
    ∃ tokens, IsFieldType tokens type ∧ Spells (bodyLexemes tokens) (front ++ (piece ++ back)) ∧
      nest [] [] (bodyLexemes tokens) = some tokens := by
  have last : Spells [] back := .nil blankBack
  have behind {blank rest : List Char} {c : Char} (nothing : Blank blank)
      (separator : c ∈ separators) : Separated (blank ++ c :: rest) :=
    separated_append nothing (separated_cons separator rest)
  cases written with
  | one names =>
    obtain rfl := names.2
    have separated : Separated back := by
      have stops := separated_append blankBack (fun _ => nofun : Separated [])
      rwa [List.append_nil] at stops
    exact ⟨[.word (.ofList piece)], .one (isName_of_names names),
      .cons blankFront (.word (isWord_of_names names) separated) last, rfl⟩
  | bracketed names counted =>
    obtain ⟨f, w, b, rfl, blankF, blankB, names⟩ := names
    obtain rfl := names.2
    obtain ⟨f', n, b', rfl, blankF', blankB', digits, rfl, small⟩ := counted
    have shape : front ++ ('[' :: (f ++ (w ++ b) ++ ';' :: (f' ++ (n ++ b') ++ [']'])) ++ back) =
        front ++ (['['] ++
          (f ++ (w ++ (b ++ ([';'] ++ (f' ++ (n ++ (b' ++ ([']'] ++ back))))))))) := by
      simp
    have spelt := Spells.cons blankFront .opening <|
      .cons blankF (.word (isWord_of_names names) (behind blankB (by decide))) <|
      .cons blankB (.mark (c := ';') (by decide)) <|
      .cons blankF' (.number digits (behind blankB' (by decide))) <|
      .cons blankB' .closing last
    rw [shape]
    exact ⟨[.group .square [.word (.ofList w), .mark ';' _,
      .literal (.integer (numeralValue n) "")]],
      .bracketed (isName_of_names names) small, spelt, rfl⟩
  | suffixed names counted =>
    obtain ⟨f, w, b, rfl, blankF, blankB, names⟩ := names
    obtain rfl := names.2
    obtain ⟨f', n, b', rfl, blankF', blankB', digits, rfl, small⟩ := counted
    have shape : front ++ (f ++ (w ++ b) ++ '[' :: (f' ++ (n ++ b') ++ [']']) ++ back) =
        (front ++ f) ++ (w ++ (b ++ (['['] ++ (f' ++ (n ++ (b' ++ ([']'] ++ back))))))) := by
      simp
    have spelt := Spells.cons (blankFront.append blankF)
        (.word (isWord_of_names names) (behind blankB (by decide))) <|
      .cons blankB .opening <|
      .cons blankF' (.number digits (behind blankB' (by decide))) <|
      .cons blankB' .closing last
    rw [shape]
    exact ⟨[.word (.ofList w), .group .square [.literal (.integer (numeralValue n) "")]],
      .suffixed (isName_of_names names) small, spelt, rfl⟩
  | @unbounded _ inside _ names nothing =>
    obtain ⟨f, w, b, rfl, blankF, blankB, names⟩ := names
    obtain rfl := names.2
    have shape : front ++ (f ++ (w ++ b) ++ '[' :: (inside ++ [']']) ++ back) =
        (front ++ f) ++ (w ++ (b ++ (['['] ++ (inside ++ ([']'] ++ back))))) := by
      simp
    have spelt := Spells.cons (blankFront.append blankF)
        (.word (isWord_of_names names) (behind blankB (by decide))) <|
      .cons blankB .opening <| .cons nothing .closing last
    rw [shape]
    exact ⟨[.word (.ofList w), .group .square []], .unbounded (isName_of_names names), spelt, rfl⟩
  | @sequence _ inside _ nothing names =>
    obtain ⟨f, w, b, rfl, blankF, blankB, names⟩ := names
    obtain rfl := names.2
    have keyword : IsWord "sequence".toList := ⟨rfl, rfl⟩
    have shape :
        front ++ ("sequence".toList ++ (inside ++ '<' :: (f ++ (w ++ b) ++ ['>'])) ++ back) =
          front ++ ("sequence".toList ++
            (inside ++ (['<'] ++ (f ++ (w ++ (b ++ (['>'] ++ back))))))) := by
      simp
    have spelt := Spells.cons blankFront (.word keyword (behind nothing (by decide))) <|
      .cons nothing (.mark (c := '<') (by decide)) <|
      .cons blankF (.word (isWord_of_names names) (behind blankB (by decide))) <|
      .cons blankB (.mark (c := '>') (by decide)) last
    rw [shape]
    exact ⟨[.word "sequence", .mark '<' _, .word (.ofList w), .mark '>' _],
      .sequence (isName_of_names names), spelt, rfl⟩

/-- Trimming stops at visible characters in front and at a mark behind. -/
theorem trim_between (first middle : List Char) (last : Char) (blankFront : Blank front)
    (blankBack : Blank back) (visible : ∀ c ∈ first, isBlank c = false) (nonempty : first ≠ [])
    (mark : isBlank last = false) :
    trim (front ++ (first ++ (middle ++ last :: back))) = first ++ (middle ++ [last]) := by
  have trimmed : Trimmed (first ++ (middle ++ [last])) := by
    constructor
    · intro c head
      rw [List.head?_append_of_ne_nil _ nonempty] at head
      exact visible c (List.mem_of_head? head)
    · intro c ends
      rw [← List.append_assoc, List.getLast?_concat] at ends
      cases ends
      exact mark
  have shape : front ++ (first ++ (middle ++ last :: back)) =
      front ++ ((first ++ (middle ++ [last])) ++ back) := by simp
  rw [shape, trim_spaced blankFront blankBack trimmed]

/-- And a text that spells them has the form. -/
theorem written_of_spells {tokens : List TokenTree} (typed : IsFieldType tokens type)
    (spells : Spells (bodyLexemes tokens) cs) : ∃ form, Written Decimal form (trim cs) type := by
  cases typed with
  | one named =>
    obtain ⟨front, word, back, rfl, blank, isWord, rfl, first⟩ := spells.word
    have names := names_of_isWord isWord named
    rw [trim_spaced blank first.blank (trimmed_of_visible names.visible)]
    exact ⟨_, .one names⟩
  | bracketed named small =>
    obtain ⟨front, _, rfl, blank, first⟩ := spells.opening
    obtain ⟨f, word, _, rfl, blankF, isWord, rfl, second⟩ := first.word
    obtain ⟨b, _, rfl, blankB, third⟩ := second.mark
    obtain ⟨f', numeral, _, rfl, blankF', digits, rfl, fourth⟩ := third.number
    obtain ⟨b', back, rfl, blankB', fifth⟩ := fourth.closing
    have trimmed := trim_between ['['] ((f ++ (word ++ b)) ++ ';' :: (f' ++ (numeral ++ b'))) ']'
      blank fifth.blank (List.forall_mem_singleton.mpr rfl) (List.cons_ne_nil _ _) rfl
    have written : Written Decimal .bracketed
        ('[' :: ((f ++ (word ++ b)) ++ ';' :: ((f' ++ (numeral ++ b')) ++ [']']))) _ :=
      .bracketed ⟨f, word, b, rfl, blankF, blankB, names_of_isWord isWord named⟩
        ⟨f', numeral, b', rfl, blankF', blankB', digits, rfl, small⟩
    simp only [List.append_assoc, List.cons_append, List.nil_append] at trimmed written
    rw [trimmed]
    exact ⟨_, written⟩
  | suffixed named small =>
    obtain ⟨front, word, _, rfl, blank, isWord, rfl, first⟩ := spells.word
    obtain ⟨b, _, rfl, blankB, second⟩ := first.opening
    obtain ⟨f', numeral, _, rfl, blankF', digits, rfl, third⟩ := second.number
    obtain ⟨b', back, rfl, blankB', fourth⟩ := third.closing
    have names := names_of_isWord isWord named
    have trimmed := trim_between word (b ++ '[' :: (f' ++ (numeral ++ b'))) ']' blank fourth.blank
      names.visible names.ne_nil rfl
    have written : Written Decimal .suffixed
        (([] ++ (word ++ b)) ++ '[' :: ((f' ++ (numeral ++ b')) ++ [']'])) _ :=
      .suffixed ⟨[], word, b, rfl, nofun, blankB, names⟩
        ⟨f', numeral, b', rfl, blankF', blankB', digits, rfl, small⟩
    simp only [List.append_assoc, List.cons_append, List.nil_append] at trimmed written
    rw [trimmed]
    exact ⟨_, written⟩
  | unbounded named =>
    obtain ⟨front, word, _, rfl, blank, isWord, rfl, first⟩ := spells.word
    obtain ⟨b, _, rfl, blankB, second⟩ := first.opening
    obtain ⟨inside, back, rfl, nothing, third⟩ := second.closing
    have names := names_of_isWord isWord named
    have trimmed := trim_between word (b ++ '[' :: inside) ']' blank third.blank names.visible
      names.ne_nil rfl
    have written : Written Decimal .unbounded (([] ++ (word ++ b)) ++ '[' :: (inside ++ [']'])) _ :=
      .unbounded ⟨[], word, b, rfl, nofun, blankB, names⟩ nothing
    simp only [List.append_assoc, List.cons_append, List.nil_append] at trimmed written
    rw [trimmed]
    exact ⟨_, written⟩
  | sequence named =>
    obtain ⟨front, keyword, _, rfl, blank, isKeyword, same, first⟩ := spells.word
    obtain ⟨inside, _, rfl, nothing, second⟩ := first.mark
    obtain ⟨f, word, _, rfl, blankF, isWord, rfl, third⟩ := second.word
    obtain ⟨b, back, rfl, blankB, fourth⟩ := third.mark
    obtain rfl : "sequence".toList = keyword := by rw [same, String.toList_ofList]
    have visible : ∀ c ∈ "sequence".toList, isBlank c = false := fun c member =>
      isBlank_identifier (List.all_eq_true.mp isKeyword.parts c member)
    have trimmed := trim_between "sequence".toList (inside ++ '<' :: (f ++ (word ++ b))) '>' blank
      fourth.blank visible (List.cons_ne_nil _ _) rfl
    have written : Written Decimal .sequence
        ("sequence".toList ++ (inside ++ '<' :: ((f ++ (word ++ b)) ++ ['>']))) _ :=
      .sequence nothing ⟨f, word, b, rfl, blankF, blankB, names_of_isWord isWord named⟩
    simp only [List.append_assoc, List.cons_append] at trimmed written
    rw [trimmed]
    exact ⟨_, written⟩

theorem readsFieldType_of_written {text : String}
    (written : Written Decimal form (trim text.toList) type) : ReadsFieldType text type := by
  obtain ⟨front, back, parts, blankFront, blankBack⟩ := exists_trim text.toList
  obtain ⟨tokens, typed, spells, nested⟩ := spells_of_written written blankFront blankBack
  rw [← parts] at spells
  exact readsFieldType_iff.mpr ⟨tokens, by rw [tokens?_of_spells spells, nested], typed⟩

theorem written_of_readsFieldType {text : String} {all : List Lexeme}
    (spells : Spells all text.toList) (read : ReadsFieldType text type) :
    ∃ form, Written Decimal form (trim text.toList) type := by
  obtain ⟨tokens, found, typed⟩ := readsFieldType_iff.mp read
  rw [tokens?_of_spells spells] at found
  have same := bodyLexemes_of_nest (flat_of_spells spells) found
  simp only [openLexemes, List.reverse_nil, bodyLexemes, List.nil_append] at same
  exact written_of_spells typed (same ▸ spells)

end Reads

section Spelt

variable {cs front rest numeral word : List Char} {element : TypeRef} {length : Nat}

def Spelt (cs : List Char) : Prop := ∃ all, Spells all cs

theorem spelt_blank (blank : Blank front) (spelt : Spelt rest) : Spelt (front ++ rest) := by
  obtain ⟨all, spells⟩ := spelt
  cases spells with
  | nil nothing => exact ⟨[], .nil (blank.append nothing)⟩
  | cons blank' piece spells =>
    rw [← List.append_assoc]
    exact ⟨_, .cons (blank.append blank') piece spells⟩

theorem spelt_piece {lexeme : Lexeme} (piece : Piece lexeme word rest) (spelt : Spelt rest) :
    Spelt (word ++ rest) := by
  obtain ⟨all, spells⟩ := spelt
  exact ⟨lexeme :: all, .cons (List.forall_mem_nil _) piece spells⟩

theorem spelt_names (names : Spaced (Names element) word) (separated : Separated rest)
    (spelt : Spelt rest) : Spelt (word ++ rest) := by
  obtain ⟨front, piece, back, rfl, blankFront, blankBack, names⟩ := names
  rw [List.append_assoc, List.append_assoc]
  exact spelt_blank blankFront (spelt_piece
    (.word (isWord_of_names names) (separated_append blankBack separated))
    (spelt_blank blankBack spelt))

/-- Digits and underscores are a number, or a word if an underscore comes first. -/
theorem spelt_decimals {c : Char} (decimals : ∀ d ∈ c :: numeral, isDecimalPart d = true)
    (separated : Separated rest) (spelt : Spelt rest) : Spelt (c :: numeral ++ rest) := by
  cases digit : c.isDigit with
  | true => exact spelt_piece (.number ⟨digit, decimals⟩ separated) spelt
  | false =>
    have first := decimals c List.mem_cons_self
    have underscore : c = '_' := by simpa [isDecimalPart, digit] using first
    have word : IsWord (c :: numeral) := by
      refine ⟨by rw [underscore]; rfl, List.all_eq_true.mpr fun d member => ?_⟩
      exact isIdentifierRest_of_isDecimalPart (decimals d member)
    exact spelt_piece (.word word separated) spelt

/-- Digits, underscores and signs are numbers, words and marks. -/
theorem spelt_numeral (parts : ∀ c ∈ numeral, isDecimalPart c = true ∨ c = '+')
    (separated : Separated rest) (spelt : Spelt rest) : Spelt (numeral ++ rest) := by
  induction shorter : numeral.length using Nat.strong_induction_on generalizing numeral with
  | _ n ih =>
    cases numeral with
    | nil => exact spelt
    | cons c numeral =>
      rw [List.forall_mem_cons] at parts
      rw [List.length_cons] at shorter
      rcases parts.1 with decimal | rfl
      · have whole := List.takeWhile_append_dropWhile (p := isDecimalPart) (l := numeral)
        have run := List.all_eq_true.mp (List.all_takeWhile (p := isDecimalPart) (l := numeral))
        have first := List.head?_dropWhile_not isDecimalPart numeral
        generalize numeral.takeWhile isDecimalPart = front at whole run
        generalize numeral.dropWhile isDecimalPart = others at whole first
        subst whole
        have signs := fun d member => parts.2 d (List.mem_append_right front member)
        rw [List.length_append] at shorter
        have later := ih others.length (by omega) signs rfl
        have ends : Separated (others ++ rest) := by
          cases others with
          | nil => exact separated
          | cons d others =>
            have apart : isDecimalPart d = false := first
            rw [(signs d List.mem_cons_self).resolve_left (by simp [apart])]
            exact separated_cons (by decide) _
        rw [← List.cons_append, List.append_assoc]
        exact spelt_decimals (List.forall_mem_cons.mpr ⟨decimal, run⟩) ends later
      · have later := ih numeral.length (by omega) parts.2 rfl
        have sign : Piece _ ['+'] (numeral ++ rest) := .mark (by decide)
        show Spelt (['+'] ++ (numeral ++ rest))
        exact spelt_piece sign later

theorem spelt_counts (counts : Spaced (Counts length) numeral) (separated : Separated rest)
    (spelt : Spelt rest) : Spelt (numeral ++ rest) := by
  obtain ⟨front, piece, back, rfl, blankFront, blankBack, counts⟩ := counts
  rw [List.append_assoc, List.append_assoc]
  exact spelt_blank blankFront (spelt_numeral counts.parts (separated_append blankBack separated)
    (spelt_blank blankBack spelt))

/-- Whatever is read as a type consists of words, decimal numbers and marks. -/
theorem spelt_of_parse {text : String} {type : FieldType} (read : parse text = .ok type) :
    Spelt text.toList := by
  obtain ⟨form, written⟩ := parse_eq_ok_iff.mp read
  obtain ⟨front, back, parts, blankFront, blankBack⟩ := exists_trim text.toList
  generalize trim text.toList = piece at written parts
  have last : Spelt back := ⟨[], .nil blankBack⟩
  have ended : Spelt (']' :: back) := spelt_piece .closing last
  rw [parts]
  refine spelt_blank blankFront ?_
  have stop {c : Char} (separator : c ∈ separators) {rest : List Char} : Separated (c :: rest) :=
    separated_cons separator rest
  cases written with
  | one names =>
    have separated := separated_append blankBack (fun _ => nofun : Separated [])
    rw [List.append_nil] at separated
    exact spelt_piece (.word (isWord_of_names names) separated) last
  | bracketed names counted =>
    simp only [List.cons_append, List.append_assoc, List.nil_append]
    exact spelt_piece .opening (spelt_names names (stop (by decide))
      (spelt_piece (.mark (c := ';') (by decide)) (spelt_counts counted (stop (by decide)) ended)))
  | suffixed names counted =>
    simp only [List.cons_append, List.append_assoc, List.nil_append]
    exact spelt_names names (stop (by decide))
      (spelt_piece .opening (spelt_counts counted (stop (by decide)) ended))
  | unbounded names nothing =>
    simp only [List.cons_append, List.append_assoc, List.nil_append]
    exact spelt_names names (stop (by decide)) (spelt_piece .opening (spelt_blank nothing ended))
  | sequence nothing names =>
    simp only [List.cons_append, List.append_assoc, List.nil_append]
    have keyword : IsWord "sequence".toList := ⟨rfl, rfl⟩
    exact spelt_piece (.word keyword (separated_append nothing (stop (by decide))))
      (spelt_blank nothing (spelt_piece (.mark (c := '<') (by decide))
        (spelt_names names (stop (by decide)) (spelt_piece (.mark (c := '>') (by decide)) last))))

end Spelt

section Both

variable {text : String} {form : Form} {cs : List Char} {type : FieldType}

theorem counts_of_written (written : Written Decimal form cs type) : Written Counts form cs type :=
  written.imp counts_of_decimal

/-- Both readers accept any of the forms with the length as a decimal literal. -/
theorem parse_and_readsFieldType_iff : parse text = .ok type ∧ ReadsFieldType text type ↔
    ∃ form, Written Decimal form (trim text.toList) type := by
  constructor
  · rintro ⟨read, readTokens⟩
    obtain ⟨all, spells⟩ := spelt_of_parse read
    exact written_of_readsFieldType spells readTokens
  · rintro ⟨form, written⟩
    exact ⟨parse_eq_ok_iff.mpr ⟨form, counts_of_written written⟩, readsFieldType_of_written written⟩

/-- What a table accepts of words, decimal numbers and marks, a schema file accepts as well. -/
theorem parse_of_readsFieldType (spelt : Spelt text.toList) (read : ReadsFieldType text type) :
    parse text = .ok type := by
  obtain ⟨all, spells⟩ := spelt
  exact (parse_and_readsFieldType_iff.mpr (written_of_readsFieldType spells read)).1

theorem type_unique {type' : FieldType} (read : parse text = .ok type)
    (readTokens : ReadsFieldType text type') : type = type' := by
  have read' := parse_of_readsFieldType (spelt_of_parse read) readTokens
  exact Except.ok.inj (read.symm.trans read')

end Both

/-- Both readers read a text as a type, or neither does, exactly if what a table has there is words,
decimal numbers and marks, and what a schema file has as a length is a decimal literal. Both do
exactly if the text has one of the forms with such a length. They never read different types. -/
theorem readers_agree (text : String) (type : FieldType) :
    ((parse text = .ok type ↔ ReadsFieldType text type) ↔
      (ReadsFieldType text type → Spelt text.toList) ∧
      ∀ form, Written Counts form (trim text.toList) type →
        Written Decimal form (trim text.toList) type) ∧
    (parse text = .ok type ∧ ReadsFieldType text type ↔
      ∃ form, Written Decimal form (trim text.toList) type) ∧
    ∀ type', parse text = .ok type → ReadsFieldType text type' → type = type' := by
  refine ⟨⟨fun same => ⟨fun read => spelt_of_parse (same.mpr read), fun form written => ?_⟩,
    fun ⟨spelt, decimal⟩ => ⟨fun read => ?_,
      fun readTokens => parse_of_readsFieldType (spelt readTokens) readTokens⟩⟩,
    parse_and_readsFieldType_iff, fun type' => type_unique⟩
  · have read := parse_eq_ok_iff.mpr ⟨form, written⟩
    obtain ⟨form', written'⟩ := parse_and_readsFieldType_iff.mp ⟨read, same.mp read⟩
    obtain ⟨rfl, -⟩ := written_unique written (counts_of_written written')
    exact written'
  · obtain ⟨form, written⟩ := parse_eq_ok_iff.mp read
    exact readsFieldType_of_written (decimal form written)

theorem readers_agree_sample :
    ReadsFieldType " sequence [ 1_0 ]" ⟨.named "sequence", .array 10⟩ ∧
    parse " sequence [ 1_0 ]" = .ok ⟨.named "sequence", .array 10⟩ ∧
    ∀ type, ReadsFieldType " sequence [ 1_0 ]" type → type = ⟨.named "sequence", .array 10⟩ := by
  obtain ⟨-, both, unique⟩ := readers_agree " sequence [ 1_0 ]" ⟨.named "sequence", .array 10⟩
  have names : Names (.named "sequence") "sequence".toList := by
    refine ⟨?_, ?_⟩ <;> decide +kernel
  have parts : ∀ c ∈ "1_0".toList, isDecimalPart c = true := List.all_eq_true.mp (by decide)
  have decimal : Decimal 10 "1_0".toList := ⟨⟨rfl, parts⟩, by decide, by decide⟩
  have space : Blank [' '] := List.forall_mem_singleton.mpr rfl
  have trimmed : trim " sequence [ 1_0 ]".toList =
      ([] ++ ("sequence".toList ++ [' '])) ++
        '[' :: ([' '] ++ ("1_0".toList ++ [' ']) ++ [']']) := by
    decide +kernel
  have written : Written Decimal .suffixed (trim " sequence [ 1_0 ]".toList)
      ⟨.named "sequence", .array 10⟩ := by
    rw [trimmed]
    exact .suffixed ⟨[], "sequence".toList, [' '], rfl, nofun, space, names⟩
      ⟨[' '], "1_0".toList, [' '], rfl, space, space, decimal⟩
  obtain ⟨read, readTokens⟩ := both.mpr ⟨_, written⟩
  exact ⟨readTokens, read, fun type other => (unique type read other).symm⟩

theorem tokens?_hexadecimal : tokens? "[uint8; 0x10]" = some [.group .square
    [.word "uint8", .mark ';' false, .literal (.integer 16 "")]] := by
  have shape : "[uint8; 0x10]".toList =
      '[' :: ("uint8".toList ++ ';' :: ' ' :: ['0', 'x', '1', '0', ']']) := rfl
  have based : basePart ['0', 'x', '1', '0', ']'] = (16, ['1', '0', ']']) := rfl
  have digits : digits? 16 0 false ['1', '0', ']'] = some (16, true, [']']) := by decide
  have integer := integer?_digits based digits (separated_cons (by decide) [])
  have float : float? ['0', 'x', '1', '0', ']'] = none := by simp [float?, floatRest?]
  have number : next? ['0', 'x', '1', '0', ']'] =
      some ([.leaf (.literal (.integer 16 ""))], [']']) := by
    rw [next?_identifier (by decide), leaf?, literal?_digit (by decide), float, integer]
    rfl
  rw [Grouping.tokens?_eq_read (by decide), shape, Grouping.read_enter_square,
    Grouping.read_word (by decide) (separated_cons (by decide) _), Grouping.read_mark (by decide),
    Grouping.read_space, Grouping.read_leaf number (by decide)]
  rw [Grouping.push_push, Grouping.push_push, Grouping.read_leave_square]
  exact Grouping.read_nil _

theorem tokens?_signed : tokens? "[uint8; +4]" = some [.group .square
    [.word "uint8", .mark ';' false, .mark '+' false, .literal (.integer 4 "")]] := by
  have shape : "[uint8; +4]".toList =
      '[' :: ("uint8".toList ++ ';' :: ' ' :: '+' :: (['4'] ++ [']'])) := rfl
  have sign : next? ('+' :: (['4'] ++ [']'])) =
      some ([.leaf (.mark '+' false)], ['4'] ++ [']']) := rfl
  have number : next? (['4'] ++ [']']) = some ([.leaf (.literal (.integer 4 ""))], [']']) :=
    next?_number (separated_cons (by decide) _) 4
  rw [Grouping.tokens?_eq_read (by decide), shape, Grouping.read_enter_square,
    Grouping.read_word (by decide) (separated_cons (by decide) _), Grouping.read_mark (by decide),
    Grouping.read_space, Grouping.read_leaf sign (by decide), Grouping.read_leaf number (by decide)]
  rw [Grouping.push_push, Grouping.push_push, Grouping.push_push, Grouping.read_leave_square]
  exact Grouping.read_nil _

/-- A length may be hexadecimal in a table only, and have a sign in a schema file only. -/
theorem readers_differ :
    (ReadsFieldType "[uint8; 0x10]" ⟨.base (.scalar .uint8), .array 16⟩ ∧
      ∀ type, parse "[uint8; 0x10]" ≠ .ok type) ∧
    (parse "[uint8; +4]" = .ok ⟨.base (.scalar .uint8), .array 4⟩ ∧
      ∀ type, ¬ ReadsFieldType "[uint8; +4]" type) := by
  refine ⟨⟨?_, fun type read => ?_⟩, by decide +kernel, fun type readTokens => ?_⟩
  · have named : isName "uint8" = true := by decide
    have small : 16 < wordLimit := by decide
    exact readsFieldType_iff.mpr ⟨_, tokens?_hexadecimal, .bracketed named small⟩
  · have wrong : parse "[uint8; 0x10]" = .error (.invalidTypeSyntax "[uint8; 0x10]" .length) := by
      decide +kernel
    rw [wrong] at read
    cases read
  · obtain ⟨tokens, found, typed⟩ := readsFieldType_iff.mp readTokens
    rw [tokens?_signed] at found
    cases found
    cases typed

end FieldType

end WireSchema
