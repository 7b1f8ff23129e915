import WireSchema.Proofs.Grouping
import WireSchema.Proofs.WellFormed
import WireSchema.Table.Printer

/-! A printed table as lines, and as the tokens that these lines spell. -/

namespace WireSchema.Table

open Token

def unlines (lines : List (List Char)) : List Char := lines.flatMap fun line => line ++ ['\n']

def docLine (line : String) : List Char := if line.isEmpty then [] else ' ' :: line.toList

def docsLines (indent : String) (docs : List String) : List (List Char) :=
  docs.map fun line => indent.toList ++ ("///".toList ++ docLine line)

def fieldLine (indent : String) (field : Field) : List Char :=
  indent.toList ++ (field.name.toList ++ ':' :: ' ' :: (field.type.text.toList ++ [',']))

def fieldsLines (indent : String) (fields : List Field) : List (List Char) :=
  fields.flatMap fun field => docsLines indent field.docs ++ [fieldLine indent field]

def headLine (entry : Entry) : List Char :=
  entry.body.keyword.toList ++ ' ' :: (entry.name.toList ++ ' ' :: '=' :: ' ' :: '(' ::
    ((Text.Quoted.shown entry.identity.name).toList ++ ',' :: ' ' ::
      ((Text.Quoted.shown entry.identity.hash).toList ++ [')'])))

def partLines (head : List Char) (fields : List Field) : List (List Char) :=
  [head] ++ fieldsLines "        " fields ++ ["    \x7d".toList]

def bodyLines (head : List Char) : Body → List (List Char)
  | .message fields => [head ++ [' ', '\x7b']] ++ fieldsLines "    " fields ++ [['\x7d']]
  | .alias target => [head ++ ' ' :: (target.text.toList ++ [';'])]
  | .service request reply =>
    [head ++ [' ', '\x7b']] ++ partLines "    request \x7b".toList request ++
      partLines "    reply \x7b".toList reply ++ [['\x7d']]

def entryLines (entry : Entry) : List (List Char) :=
  docsLines "" entry.docs ++ bodyLines (headLine entry) entry.body

def lines (schema : Schema) : List (List Char) :=
  [[]].intercalate (schema.entries.map entryLines)

theorem lines_singleton (entry : Entry) : lines ⟨[entry]⟩ = entryLines entry := by
  simp [lines]

theorem lines_cons_cons (entry next : Entry) (rest : List Entry) :
    lines ⟨entry :: next :: rest⟩ = entryLines entry ++ [[]] ++ lines ⟨next :: rest⟩ := by
  simp [lines, List.intercalate_cons_cons]

section Text

theorem toList_concat (parts : List String) :
    ("".intercalate parts).toList = parts.flatMap String.toList := by
  have flatten (parts : List (List Char)) : [].intercalate parts = parts.flatten := by
    induction parts with
    | nil => simp
    | cons part rest ih =>
      cases rest with
      | nil => simp
      | cons next rest => rw [List.intercalate_cons_cons, ih]; simp
  rw [String.toList_intercalate, String.toList_empty, flatten, List.flatMap]

theorem docsText_eq (indent : String) (docs : List String) :
    (docsText indent docs).toList = unlines (docsLines indent docs) := by
  rw [docsText, toList_concat, List.flatMap_map, unlines, docsLines, List.flatMap_map]
  congr 1
  funext line
  rw [docLine]
  split
  · simp only [String.toList_append]
    rfl
  · simp only [String.toList_append, List.append_assoc]
    rfl

theorem unlines_append (front back : List (List Char)) :
    unlines (front ++ back) = unlines front ++ unlines back :=
  List.flatMap_append

theorem unlines_cons (line : List Char) (lines : List (List Char)) :
    unlines (line :: lines) = line ++ '\n' :: unlines lines := by
  simp [unlines]

theorem fieldsText_eq (indent : String) (fields : List Field) :
    (fieldsText indent fields).toList = unlines (fieldsLines indent fields) := by
  rw [fieldsText, toList_concat, List.flatMap_map, unlines, fieldsLines, List.flatMap_assoc]
  congr 1
  funext field
  rw [List.flatMap_append]
  simp [docsText_eq, fieldLine, unlines]

theorem bodyText_eq (head : List Char) (body : Body) :
    head ++ (bodyText body).toList ++ ['\n'] = unlines (bodyLines head body) := by
  cases body with
  | message fields =>
    unfold bodyText
    simp only [bodyLines, String.toList_append, fieldsText_eq, unlines_append, unlines_cons]
    simp [unlines]
  | «alias» target =>
    unfold bodyText
    simp [bodyLines, unlines]
  | service request reply =>
    unfold bodyText
    simp only [bodyLines, partLines, String.toList_append, fieldsText_eq, unlines_append,
      unlines_cons]
    simp [unlines]

theorem entryText_eq (entry : Entry) :
    (entryText entry).toList ++ ['\n'] = unlines (entryLines entry) := by
  rw [entryLines, unlines_append, ← docsText_eq, ← bodyText_eq]
  simp [entryText, headLine]

theorem unlines_eq_intercalate {lines : List (List Char)} (nonempty : lines ≠ []) :
    unlines lines = ['\n'].intercalate lines ++ ['\n'] := by
  induction lines with
  | nil => exact (nonempty rfl).elim
  | cons line rest ih =>
    cases rest with
    | nil => simp [unlines]
    | cons next rest =>
      rw [unlines_cons, ih (List.cons_ne_nil next rest), List.intercalate_cons_cons]
      simp

theorem text_append_feed (entry : Entry) (rest : List Entry) :
    (text ⟨entry :: rest⟩).toList ++ ['\n'] = unlines (lines ⟨entry :: rest⟩) := by
  induction rest generalizing entry with
  | nil => simp [text, lines_singleton, entryText_eq]
  | cons next rest ih =>
    have front : text ⟨entry :: next :: rest⟩ =
        entryText entry ++ "\n\n" ++ text ⟨next :: rest⟩ := by
      simp [text, String.intercalate_cons_cons]
    rw [front, lines_cons_cons, unlines_append, unlines_append, ← ih, ← entryText_eq]
    simp [unlines]

/-- The last line of a body has something in it. -/
theorem exists_last_bodyLine (head : List Char) (body : Body) :
    ∃ front last, bodyLines head body = front ++ [last] ∧ last ≠ [] := by
  cases body with
  | message fields => exact ⟨_, ['\x7d'], rfl, List.cons_ne_nil _ _⟩
  | «alias» target => exact ⟨[], _, rfl, by simp⟩
  | service request reply => exact ⟨_, ['\x7d'], rfl, List.cons_ne_nil _ _⟩

theorem exists_last_line (entry : Entry) (rest : List Entry) :
    ∃ front last, lines ⟨entry :: rest⟩ = front ++ [last] ∧ last ≠ [] := by
  induction rest generalizing entry with
  | nil =>
    obtain ⟨front, last, shape, full⟩ := exists_last_bodyLine (headLine entry) entry.body
    refine ⟨docsLines "" entry.docs ++ front, last, ?_, full⟩
    rw [lines_singleton, entryLines, shape, List.append_assoc]
  | cons next rest ih =>
    obtain ⟨front, last, shape, full⟩ := ih next
    refine ⟨entryLines entry ++ [[]] ++ front, last, ?_, full⟩
    rw [List.append_assoc _ front, ← shape, lines_cons_cons]

theorem text_eq (entry : Entry) (rest : List Entry) :
    (text ⟨entry :: rest⟩).toList = ['\n'].intercalate (lines ⟨entry :: rest⟩) := by
  obtain ⟨front, last, shape, -⟩ := exists_last_line entry rest
  have nonempty : lines ⟨entry :: rest⟩ ≠ [] := by
    simp [shape]
  have feeds := text_append_feed entry rest
  rw [unlines_eq_intercalate nonempty] at feeds
  exact List.append_cancel_right feeds

def Unbroken (cs : List Char) : Prop := '\n' ∉ cs ∧ '\r' ∉ cs

theorem lines_go_eq {lines : List (List Char)} {front : List (List Char)} {last : List Char}
    (shape : lines = front ++ [last]) (full : last ≠ [])
    (unbroken : ∀ line ∈ lines, Unbroken line) : Text.lines.go lines = lines := by
  subst shape
  induction front with
  | nil => simp [Text.lines.go, full]
  | cons line front ih =>
    rw [List.cons_append, List.forall_mem_cons] at unbroken
    have ret : Text.dropLast? '\r' line = none := by
      apply if_neg
      intro ends
      exact unbroken.1.2 (List.mem_of_getLast? ends)
    rw [List.cons_append, Text.lines.go, ret, ih unbroken.2]
    · rfl
    · simp

theorem lines_intercalate {lines front : List (List Char)} {last : List Char}
    (shape : lines = front ++ [last]) (full : last ≠ [])
    (unbroken : ∀ line ∈ lines, Unbroken line) :
    Text.lines (['\n'].intercalate lines) = lines := by
  have feeds : ∀ line ∈ lines, '\n' ∉ line := fun line member => (unbroken line member).1
  rw [Text.lines, List.splitOn_intercalate '\n' feeds (by simp [shape])]
  exact lines_go_eq shape full unbroken

theorem source_eq {schema : Schema} (unbroken : ∀ line ∈ lines schema, Unbroken line) :
    (source schema).toList =
      "hdds_cdr::schema! \x7b\n".toList ++ Grouping.indented (lines schema) ++ "\x7d\n".toList := by
  have whole : Text.lines (text schema).toList = lines schema := by
    obtain ⟨entries⟩ := schema
    cases entries with
    | nil => rfl
    | cons entry rest =>
      obtain ⟨front, last, shape, full⟩ := exists_last_line entry rest
      rw [text_eq, lines_intercalate shape full unbroken]
  unfold source
  rw [whole]
  simp only [String.toList_append, toList_concat, List.flatMap_map, Grouping.indented]
  congr 2
  congr 1
  funext line
  split
  · rfl
  · simp

end Text

section Tokens

def documentationTokens (docs : List String) : List TokenTree :=
  docs.flatMap fun line => Grouping.documentation (docLine line)

def typeTokens (type : FieldType) : List TokenTree :=
  match type.cardinality with
  | .one => [.word type.element.text]
  | .array length =>
    [.group .square
      [.word type.element.text, .mark ';' false, .literal (.integer length "")]]
  | .sequence =>
    [.word "sequence", .mark '<' false, .word type.element.text, .mark '>' true]

def fieldTokens (field : Field) : List TokenTree :=
  documentationTokens field.docs ++ [.word field.name, .mark ':' false] ++
    typeTokens field.type ++ [.mark ',' false]

def fieldsTokens (fields : List Field) : List TokenTree := fields.flatMap fieldTokens

def identityTokens (identity : TypeIdentity) : List TokenTree :=
  [.literal (.string identity.name), .mark ',' false, .literal (.string identity.hash)]

def headTokens (entry : Entry) : List TokenTree :=
  [.word entry.body.keyword, .word entry.name, .mark '=' false,
    .group .round (identityTokens entry.identity)]

def bodyTokens : Body → List TokenTree
  | .message fields => [.group .curly (fieldsTokens fields)]
  | .alias target => [.word target.text, .mark ';' false]
  | .service request reply =>
    [.group .curly [.word "request", .group .curly (fieldsTokens request), .word "reply",
      .group .curly (fieldsTokens reply)]]

def entryTokens (entry : Entry) : List TokenTree :=
  documentationTokens entry.docs ++ headTokens entry ++ bodyTokens entry.body

def tokens (schema : Schema) : List TokenTree := schema.entries.flatMap entryTokens

end Tokens

structure Legible (element : TypeRef) : Prop where
  valid : isIdentifier element.text
  reread : TypeRef.ofName element.text = element

structure LegibleField (field : Field) : Prop where
  valid : isIdentifier field.name
  element : Legible field.type.element
  word : ∀ length, field.type.cardinality = .array length → length < wordLimit
  docs : ∀ line ∈ field.docs, Unbroken line.toList

/-- An entry whose text says what it is. -/
structure LegibleEntry (entry : Entry) : Prop where
  valid : isIdentifier entry.name
  docs : ∀ line ∈ entry.docs, Unbroken line.toList
  fields : ∀ fields ∈ entry.body.fieldLists, ∀ field ∈ fields, LegibleField field
  target : ∀ target, entry.body = .alias target → Legible target

section Reads

open Grouping

variable {g : Grouping} {rest : List Char}

theorem moves_doc (g : Grouping) {indent : String} (blank : indent.toList.all (· == ' '))
    {line : String} (unbroken : Unbroken line.toList) :
    Moves (indent.toList ++ ("///".toList ++ docLine line)) g
      (g.push (documentation (docLine line))) := by
  have slash : (docLine line).head? ≠ some '/' := by
    rw [docLine]
    split <;> simp
  have inside : Unbroken (docLine line) := by
    obtain ⟨feed, ret⟩ := unbroken
    rw [docLine]
    split <;> simp [Unbroken, feed, ret]
  intro rest ends
  rw [List.append_assoc, read_spaces blank, read_documentation slash inside.1 inside.2 ends]

theorem reads_docs (g : Grouping) (indent : String) (blank : indent.toList.all (· == ' '))
    {docs : List String} (unbroken : ∀ line ∈ docs, Unbroken line.toList) :
    Reads (docsLines indent docs) g (g.push (documentationTokens docs)) := by
  induction docs generalizing g with
  | nil => exact .nil
  | cons line docs ih =>
    rw [List.forall_mem_cons] at unbroken
    have later := ih (g.push (documentation (docLine line))) unbroken.2
    rw [push_push] at later
    exact .cons (moves_doc g blank unbroken.1) later

theorem separated_cons {c : Char} (member : c ∈ separators) (rest : List Char) :
    Separated (c :: rest) := by
  intro d head
  obtain rfl := Option.some.inj head
  exact member

theorem read_type {type : FieldType} (legible : Legible type.element) (rest : List Char) :
    g.read (type.text.toList ++ ',' :: rest) = (g.push (typeTokens type)).read (',' :: rest) := by
  obtain ⟨element, cardinality⟩ := type
  have valid := legible.valid
  cases cardinality with
  | one => exact read_word valid (separated_cons (by decide) rest)
  | array length =>
    have shape : (FieldType.text ⟨element, .array length⟩).toList ++ ',' :: rest =
        '[' :: (element.text.toList ++ ';' :: ' ' :: ((toString length).toList ++
          ']' :: ',' :: rest)) := by
      simp [FieldType.text]
    rw [shape, read_enter_square, read_word valid (separated_cons (by decide) _),
      read_mark (by decide), read_space, read_number (separated_cons (by decide) _), push_push,
      push_push, read_leave_square]
    rfl
  | sequence =>
    have shape : (FieldType.text ⟨element, .sequence⟩).toList ++ ',' :: rest =
        "sequence".toList ++ '<' :: (element.text.toList ++ '>' :: ',' :: rest) := by
      simp [FieldType.text]
    rw [shape, read_word (by decide) (separated_cons (by decide) _), read_mark (by decide),
      startsMark_word valid, read_word valid (separated_cons (by decide) _),
      read_mark (by decide), push_push, push_push, push_push]
    rfl

theorem moves_field (g : Grouping) {indent : String} (blank : indent.toList.all (· == ' '))
    {field : Field} (legible : LegibleField field) :
    Moves (fieldLine indent field) g
      (g.push ([.word field.name, .mark ':' false] ++ typeTokens field.type ++
        [.mark ',' false])) := by
  intro rest ends
  have shape : fieldLine indent field ++ rest = indent.toList ++ (field.name.toList ++
      ':' :: ' ' :: (field.type.text.toList ++ ',' :: rest)) := by
    simp [fieldLine]
  rw [shape, read_spaces blank, read_word legible.valid (separated_cons (by decide) _),
    read_mark (by decide), read_space, read_type legible.element, read_mark (by decide),
    ends.startsMark, push_push, push_push, push_push]
  rfl

theorem reads_fields (g : Grouping) (indent : String) (blank : indent.toList.all (· == ' '))
    {fields : List Field} (legible : ∀ field ∈ fields, LegibleField field) :
    Reads (fieldsLines indent fields) g (g.push (fieldsTokens fields)) := by
  induction fields generalizing g with
  | nil => exact .nil
  | cons field fields ih =>
    rw [List.forall_mem_cons] at legible
    have docs := reads_docs g indent blank legible.1.docs
    have line := Reads.single (moves_field (g.push (documentationTokens field.docs))
      blank legible.1)
    have first := docs.append line
    rw [push_push, ← List.append_assoc, ← List.append_assoc] at first
    have later := ih (g.push (fieldTokens field)) legible.2
    rw [push_push] at later
    exact first.append later

theorem isIdentifier_keyword (body : Body) : isIdentifier body.keyword = true := by
  have keywords : ∀ word ∈ ["message", "alias", "service"], isIdentifier word = true := by
    decide
  apply keywords
  cases body <;> simp [Body.keyword]

theorem read_head (entry : Entry) (valid : isIdentifier entry.name = true) (rest : List Char) :
    g.read (headLine entry ++ rest) = (g.push (headTokens entry)).read rest := by
  have keyword := isIdentifier_keyword entry.body
  have shape : headLine entry ++ rest = entry.body.keyword.toList ++ ' ' ::
      (entry.name.toList ++ ' ' :: '=' :: ' ' :: '(' ::
        ((Text.Quoted.shown entry.identity.name).toList ++ ',' :: ' ' ::
          ((Text.Quoted.shown entry.identity.hash).toList ++ ')' :: rest))) := by
    simp [headLine]
  rw [shape, read_word keyword (separated_cons (by decide) _), read_space,
    read_word valid (separated_cons (by decide) _), read_space, read_mark (by decide), read_space,
    read_enter_round, read_shown (separated_cons (by decide) _), read_mark (by decide), read_space,
    read_shown (separated_cons (by decide) _), push_push, push_push, read_leave_round, push_push,
    push_push, push_push]
  rfl

theorem moves_head (g : Grouping) {entry : Entry} (valid : isIdentifier entry.name = true) :
    Moves (headLine entry ++ [' ', '\x7b']) g
      ((g.push (headTokens entry)).enter .curly) := by
  intro rest _
  have shape : headLine entry ++ [' ', '\x7b'] ++ rest =
      headLine entry ++ ' ' :: '\x7b' :: rest := by
    simp
  rw [shape, read_head entry valid, read_space, read_enter_curly]

theorem moves_part (g : Grouping) {line : List Char} {word : String}
    (valid : isIdentifier word = true)
    (shape : line = "    ".toList ++ (word.toList ++ [' ', '\x7b'])) :
    Moves line g ((g.push [.word word]).enter .curly) := by
  intro rest _
  have whole : line ++ rest = "    ".toList ++ (word.toList ++ ' ' :: '\x7b' :: rest) := by
    simp [shape]
  rw [whole, read_spaces (by decide), read_word valid (separated_cons (by decide) _), read_space,
    read_enter_curly]

theorem moves_leave (g : Grouping) {line : List Char} (spaces : List Char)
    (blank : spaces.all (· == ' ')) (shape : line = spaces ++ ['\x7d']) (tokens : List TokenTree) :
    Moves line ((g.enter .curly).push tokens) (g.push [.group .curly tokens]) := by
  intro rest _
  rw [shape, List.append_assoc, read_spaces blank]
  exact read_leave_curly tokens rest

theorem reads_part (g : Grouping) {head : List Char} (word : String)
    (valid : isIdentifier word = true)
    (shape : head = "    ".toList ++ (word.toList ++ [' ', '\x7b'])) {fields : List Field}
    (legible : ∀ field ∈ fields, LegibleField field) :
    Reads (partLines head fields) g
      (g.push [.word word, .group .curly (fieldsTokens fields)]) := by
  have opening := Reads.single (moves_part g valid shape)
  have inside := reads_fields ((g.push [.word word]).enter .curly) "        " (by decide)
    legible
  have closing := Reads.single (moves_leave (g.push [.word word]) "    ".toList
    (by decide) rfl (fieldsTokens fields))
  rw [push_push] at closing
  exact (opening.append inside).append closing

theorem reads_body (g : Grouping) {entry : Entry} (legible : LegibleEntry entry) :
    Reads (bodyLines (headLine entry) entry.body) g
      (g.push (headTokens entry ++ bodyTokens entry.body)) := by
  have fields := legible.fields
  have opening := Reads.single (moves_head g legible.valid)
  have closing (tokens : List TokenTree) := Reads.single
    (moves_leave (g.push (headTokens entry)) [] (by simp) rfl tokens)
  simp only [push_push] at closing
  cases shape : entry.body with
  | message own =>
    rw [shape] at fields
    have inside := reads_fields ((g.push (headTokens entry)).enter .curly) "    " (by decide)
      (fields own (List.mem_singleton_self _))
    exact (opening.append inside).append (closing _)
  | «alias» target =>
    have valid := (legible.target target shape).valid
    apply Reads.single
    intro rest ends
    have whole : headLine entry ++ ' ' :: (target.text.toList ++ [';']) ++ rest =
        headLine entry ++ ' ' :: (target.text.toList ++ ';' :: rest) := by
      simp
    rw [whole, read_head entry legible.valid, read_space,
      read_word valid (separated_cons (by decide) _), read_mark (by decide),
      ends.startsMark, push_push, push_push]
    rfl
  | service request reply =>
    rw [shape] at fields
    have first := reads_part ((g.push (headTokens entry)).enter .curly) "request"
      (by decide) rfl (fields request List.mem_cons_self)
    have second := reads_part (((g.push (headTokens entry)).enter .curly).push
        [.word "request", .group .curly (fieldsTokens request)]) "reply"
      (by decide) rfl (fields reply (List.mem_cons_of_mem _ (List.mem_singleton_self _)))
    rw [push_push] at second
    exact ((opening.append first).append second).append (closing _)

theorem reads_entry (g : Grouping) {entry : Entry} (legible : LegibleEntry entry) :
    Reads (entryLines entry) g (g.push (entryTokens entry)) := by
  have docs := reads_docs g "" (by simp) legible.docs
  have body := reads_body (g.push (documentationTokens entry.docs)) legible
  rw [push_push, ← List.append_assoc] at body
  exact docs.append body

/-- The lines of a table spell its tokens. -/
theorem reads_lines (g : Grouping) {entries : List Entry}
    (legible : ∀ entry ∈ entries, LegibleEntry entry) :
    Reads (lines ⟨entries⟩) g (g.push (tokens ⟨entries⟩)) := by
  induction entries generalizing g with
  | nil => exact .nil
  | cons entry rest ih =>
    rw [List.forall_mem_cons] at legible
    have first := reads_entry g legible.1
    cases rest with
    | nil =>
      rw [lines_singleton]
      simpa [tokens] using first
    | cons next rest =>
      have gap := Reads.single (moves_nil (g.push (entryTokens entry)))
      have later := ih (g.push (entryTokens entry)) legible.2
      rw [push_push] at later
      rw [lines_cons_cons]
      exact (first.append gap).append later

end Reads

end WireSchema.Table
