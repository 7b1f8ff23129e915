import WireSchema.Proofs.Rendering
import WireSchema.Proofs.TableStrings

/-! Which tables are still read as their schema when it is printed again. -/

namespace WireSchema

namespace Token

section Slashes

variable {cs line rest : List Char} {g : Grouping} {tokens : List TokenTree}

theorem leaf?_slashes (cs : List Char) : leaf? ('/' :: '/' :: cs) = none := by
  have literal : literal? ('/' :: '/' :: cs) = none := rfl
  have mark : mark? ('/' :: '/' :: cs) = none := rfl
  have starts : startsWord '/' = false := by
    rw [startsWord, Text.isWordStart, contains_eq_any]
    decide +kernel
  have word : markedWord? ('/' :: '/' :: cs) = none := by
    simp [markedWord?, word?, starts]
  rw [leaf?, literal, mark, word]
  simp

/-- Behind three slashes and a space there is documentation up to the end of the line, or nothing
that can be read. -/
theorem next?_slashes (cs : List Char) : next? ('/' :: '/' :: '/' :: ' ' :: cs) =
    if returnsPaired (lineRest cs).1 then
      some (documentationLexemes (' ' :: (lineRest cs).1) false, (lineRest cs).2)
    else none := by
  have trivia : skipTrivia? ('/' :: '/' :: '/' :: ' ' :: cs) = none := rfl
  have found : documentation? ('/' :: '/' :: '/' :: ' ' :: cs) =
      if returnsPaired (lineRest cs).1 then
        some (' ' :: (lineRest cs).1, false, (lineRest cs).2) else none := rfl
  have broken : Text.dropFront? brokenLiteral ('/' :: '/' :: '/' :: ' ' :: cs) = none := rfl
  unfold next?
  rw [trivia, found]
  by_cases paired : returnsPaired (lineRest cs).1 = true
  · rw [if_pos paired, if_pos paired]
  · rw [if_neg paired, if_neg paired, broken]
    show (leaf? ('/' :: '/' :: '/' :: ' ' :: cs)).map _ = none
    rw [leaf?_slashes]
    rfl

theorem feed_not_mem_lineRest (cs : List Char) : '\n' ∉ (lineRest cs).1 := by
  fun_induction lineRest cs with
  | case1 | case2 | case3 => exact List.not_mem_nil
  | case4 c rest feed _ ih => exact List.not_mem_cons_of_ne_of_not_mem (Ne.symm feed) ih

theorem length_lineRest_le (line : List Char) (ends : EndsLine rest) :
    (lineRest (line ++ rest)).1.length ≤ line.length := by
  induction line with
  | nil =>
    cases rest with
    | nil => exact Nat.le_refl 0
    | cons c rest =>
      rw [ends c rfl]
      exact Nat.le_refl 0
  | cons c line ih =>
    rw [List.cons_append]
    unfold lineRest
    split
    case h_1 shape => cases shape
    case h_2 shape => exact Nat.zero_le _
    case h_3 shape => exact Nat.zero_le _
    case h_4 shape =>
      obtain ⟨-, rfl⟩ := List.cons.inj shape
      exact Nat.succ_le_succ ih

theorem unbroken_of_paired (paired : returnsPaired cs = true) (feed : '\n' ∉ cs) :
    Table.Unbroken cs := by
  refine ⟨feed, ?_⟩
  fun_induction returnsPaired cs with
  | case1 => exact List.not_mem_nil
  | case2 => simp at feed
  | case3 => cases paired
  | case4 c rest _ ret ih =>
    rw [List.mem_cons, not_or] at feed ⊢
    exact ⟨Ne.symm ret, ih paired feed.2⟩

theorem exists_of_scan {c : Char} {all : List Lexeme} (scanned : scan (c :: cs) = some all) :
    ∃ front rest back, next? (c :: cs) = some (front, rest) ∧ scan rest = some back ∧
      all = front ++ back := by
  rw [scan, if_neg (by simp)] at scanned
  split at scanned
  · cases scanned
  · rename_i front rest found
    split at scanned
    · obtain ⟨back, later, rfl⟩ := Option.map_eq_some_iff.mp scanned
      exact ⟨front, rest, back, found, later, rfl⟩
    · cases scanned

/-- What is read behind three slashes and a space is an unbroken text, no longer than the line. -/
theorem exists_of_read_slashes (ends : EndsLine rest)
    (read : g.read ('/' :: '/' :: '/' :: ' ' :: (line ++ rest)) = some tokens) :
    ∃ text, Table.Unbroken text ∧ text.length ≤ line.length ∧
      (g.push (Grouping.documentation (' ' :: text))).strings <+: TokenTree.bodyStrings tokens := by
  obtain ⟨all, scanned, nested⟩ := Option.bind_eq_some_iff.mp read
  obtain ⟨front, rest', back, found, -, rfl⟩ := exists_of_scan scanned
  rw [next?_slashes] at found
  split at found
  · rename_i paired
    cases found
    exact ⟨_, unbroken_of_paired paired (feed_not_mem_lineRest _), length_lineRest_le line ends,
      strings_prefix_of_nest nested⟩
  · cases found

end Slashes

end Token

open TokenTree (bodyStrings)

namespace Table

open Token Grammar

instance (cs : List Char) : Decidable (Unbroken cs) :=
  inferInstanceAs (Decidable ('\n' ∉ cs ∧ '\r' ∉ cs))

section Masks

/-- A broken line gives way to a longer one that is not. -/
def masked (line : String) : String :=
  if Unbroken line.toList then line else .ofList (List.replicate (line.length + 1) '-')

theorem masked_of_unbroken {line : String} (unbroken : Unbroken line.toList) :
    masked line = line :=
  if_pos unbroken

theorem length_masked {line : String} (broken : ¬ Unbroken line.toList) :
    (masked line).length = line.length + 1 := by
  rw [masked, if_neg broken]
  simp

theorem unbroken_masked (line : String) : Unbroken (masked line).toList := by
  rw [masked]
  split
  · assumption
  · simp [Unbroken, List.mem_replicate]

def MaskedBy (text mask : String) : Prop := Unbroken text.toList → mask = text

def maskedField (field : Field) : Field := { field with docs := field.docs.map masked }

def maskedBody : Body → Body
  | .message fields => .message (fields.map maskedField)
  | .alias target => .alias target
  | .service request reply => .service (request.map maskedField) (reply.map maskedField)

def maskedEntry (entry : Entry) : Entry :=
  { entry with docs := entry.docs.map masked, body := maskedBody entry.body }

def maskedSchema (schema : Schema) : Schema := ⟨schema.entries.map maskedEntry⟩

theorem fieldLists_maskedBody (body : Body) :
    (maskedBody body).fieldLists = body.fieldLists.map (List.map maskedField) := by
  cases body <;> rfl

theorem keyword_maskedBody (body : Body) : (maskedBody body).keyword = body.keyword := by
  cases body <;> rfl

theorem docs_maskedBody (body : Body) :
    (maskedBody body).fieldLists.flatten.flatMap Field.docs =
      (body.fieldLists.flatten.flatMap Field.docs).map masked := by
  rw [fieldLists_maskedBody, ← List.map_flatten, List.flatMap_map, List.map_flatMap]
  rfl

theorem documentation_maskedEntry (entry : Entry) :
    documentation (maskedEntry entry) = (documentation entry).map masked := by
  rw [documentation, documentation, List.map_append]
  exact congrArg _ (docs_maskedBody entry.body)

theorem legible_maskedEntry {schema : Schema} (wellFormed : schema.WellFormed) {entry : Entry}
    (member : entry ∈ schema.entries)
    (words : ∀ field ∈ entry.body.fieldLists.flatten, ∀ size,
      field.type.cardinality = .array size → size < wordLimit) :
    LegibleEntry (maskedEntry entry) := by
  have unbroken (docs : List String) : ∀ line ∈ docs.map masked, Unbroken line.toList :=
    List.forall_mem_map.mpr fun line _ => unbroken_masked line
  refine ⟨wellFormed.name_valid entry member, unbroken _, ?_, fun target shape => ?_⟩
  · rw [maskedEntry, fieldLists_maskedBody]
    refine List.forall_mem_map.mpr fun fields listed => ?_
    refine List.forall_mem_map.mpr fun field inside => ?_
    have valid := (wellFormed.fields_wellFormed entry member fields listed).valid field inside
    have element := legible_element wellFormed member (Body.element_mem_of_field listed inside)
    have word := words field (List.mem_flatten.mpr ⟨fields, listed, inside⟩)
    exact ⟨valid, element, word, unbroken _⟩
  · apply legible_element wellFormed member
    cases body : entry.body with
    | «alias» own =>
      rw [maskedEntry, body] at shape
      cases shape
      exact List.mem_singleton_self target
    | message | service =>
      rw [maskedEntry, body] at shape
      cases shape

theorem masked_entryStrings (entry : Entry) :
    List.Forall₂ MaskedBy (entryStrings entry) (entryStrings (maskedEntry entry)) := by
  have mask (docs : List String) : List.Forall₂ MaskedBy docs (docs.map masked) :=
    List.forall₂_map_right_iff.mpr (List.forall₂_same.mpr fun _ _ => masked_of_unbroken)
  have same : entryStrings (maskedEntry entry) = entry.docs.map masked ++
      [unspaced entry.identity.name, unspaced entry.identity.hash] ++
        (entry.body.fieldLists.flatten.flatMap Field.docs).map masked := by
    rw [← docs_maskedBody]
    rfl
  have kept (texts : List String) : List.Forall₂ MaskedBy texts texts :=
    List.forall₂_same.mpr fun _ _ _ => rfl
  rw [same]
  exact List.rel_append (List.rel_append (mask _) (kept _)) (mask _)

end Masks

section Lines

/-- The same line, or a line of documentation that is broken, and its mask. -/
inductive Masks : List Char → List Char → Prop
  | same {line : List Char} : Masks line line
  | broken {indent : String} {line : String} (blank : indent.toList.all (· == ' '))
      (broken : ¬ Unbroken line.toList) :
    Masks (indent.toList ++ ("///".toList ++ docLine line))
      (indent.toList ++ ("///".toList ++ docLine (masked line)))

theorem masks_same (lines : List (List Char)) : List.Forall₂ Masks lines lines :=
  List.forall₂_same.mpr fun _ _ => .same

theorem masks_docsLines {indent : String} (blank : indent.toList.all (· == ' '))
    (docs : List String) :
    List.Forall₂ Masks (docsLines indent docs) (docsLines indent (docs.map masked)) := by
  rw [docsLines, docsLines, List.map_map]
  refine List.forall₂_map_left_iff.mpr (List.forall₂_map_right_iff.mpr
    (List.forall₂_same.mpr fun line _ => ?_))
  by_cases unbroken : Unbroken line.toList
  · rw [Function.comp_apply, masked_of_unbroken unbroken]
    exact .same
  · exact .broken blank unbroken

theorem masks_fieldsLines {indent : String} (blank : indent.toList.all (· == ' '))
    (fields : List Field) :
    List.Forall₂ Masks (fieldsLines indent fields)
      (fieldsLines indent (fields.map maskedField)) := by
  induction fields with
  | nil => exact .nil
  | cons field fields ih =>
    exact List.rel_append (List.rel_append (masks_docsLines blank field.docs) (masks_same _)) ih

theorem masks_bodyLines (head : List Char) (body : Body) :
    List.Forall₂ Masks (bodyLines head body) (bodyLines head (maskedBody body)) := by
  have part (head : List Char) (fields : List Field) : List.Forall₂ Masks (partLines head fields)
      (partLines head (fields.map maskedField)) :=
    List.rel_append (List.rel_append (masks_same _) (masks_fieldsLines (by decide) fields))
      (masks_same _)
  cases body with
  | message fields =>
    exact List.rel_append (List.rel_append (masks_same _) (masks_fieldsLines (by decide) fields))
      (masks_same _)
  | «alias» target => exact masks_same _
  | service request reply =>
    exact List.rel_append (List.rel_append (List.rel_append (masks_same _) (part _ request))
      (part _ reply)) (masks_same _)

theorem masks_entryLines (entry : Entry) :
    List.Forall₂ Masks (entryLines entry) (entryLines (maskedEntry entry)) := by
  have head : headLine (maskedEntry entry) = headLine entry := by
    rw [headLine, headLine, maskedEntry, keyword_maskedBody]
  rw [entryLines, entryLines, head]
  exact List.rel_append (masks_docsLines (by decide) entry.docs) (masks_bodyLines _ entry.body)

theorem masks_lines (schema : Schema) :
    List.Forall₂ Masks (lines schema) (lines (maskedSchema schema)) := by
  obtain ⟨entries⟩ := schema
  induction entries with
  | nil => exact .nil
  | cons entry rest ih =>
    cases rest with
    | nil =>
      rw [lines_singleton]
      exact lines_singleton (maskedEntry entry) ▸ masks_entryLines entry
    | cons next rest =>
      rw [lines_cons_cons]
      show List.Forall₂ Masks _ (lines ⟨maskedEntry entry :: maskedEntry next :: _⟩)
      rw [lines_cons_cons]
      exact List.rel_append (List.rel_append (masks_entryLines entry) (masks_same _)) ih

end Lines

section Walk

variable {g k : Grouping} {tokens target : List TokenTree}

theorem exists_intercalate_cons (line : List Char) (lines : List (List Char)) :
    ∃ rest, EndsLine rest ∧ ['\n'].intercalate (line :: lines) = line ++ rest ∧
      ∀ g : Grouping, g.read rest = g.read (['\n'].intercalate lines) := by
  cases lines with
  | nil => exact ⟨[], by simp [EndsLine], by simp, fun _ => rfl⟩
  | cons next lines =>
    exact ⟨'\n' :: ['\n'].intercalate (next :: lines), by simp [EndsLine],
      by simp [List.intercalate_cons_cons], fun _ => Grouping.read_feed _⟩

theorem unspaced_docLine (line : String) : unspaced (.ofList (docLine line)) = line := by
  rw [unspaced, String.toList_ofList, Parse.dropFront_docLine]

theorem rel_of_prefix {r : String → String → Prop} {texts masks front : List String}
    {text mask : String} (related : List.Forall₂ r texts masks) (left : front ++ [text] <+: texts)
    (right : front ++ [mask] <+: masks) : r text mask := by
  rcases left with ⟨more, rfl⟩
  rcases right with ⟨more', rfl⟩
  have behind := List.forall₂_drop front.length related
  rw [List.append_assoc, List.append_assoc, List.drop_left, List.drop_left] at behind
  cases behind with
  | cons first _ => exact first

/-- What is read of a broken line of documentation is not broken, so it would be its own mask. -/
theorem not_masks_of_broken {indent line : String} (blank : indent.toList.all (· == ' '))
    (broken : ¬ Unbroken line.toList) {rest rest' : List Char} (ends : EndsLine rest)
    (ends' : EndsLine rest')
    (read : g.read (indent.toList ++ ("///".toList ++ docLine line) ++ rest) = some tokens)
    (read' : g.read (indent.toList ++ ("///".toList ++ docLine (masked line)) ++ rest') =
      some target) :
    ¬ List.Forall₂ MaskedBy ((bodyStrings tokens).map unspaced)
      ((bodyStrings target).map unspaced) := by
  intro strings
  have shape : docLine line = ' ' :: line.toList := by
    rw [docLine, if_neg]
    intro empty
    rw [String.isEmpty_iff.mp empty] at broken
    exact broken unbroken_nil
  rw [shape, List.append_assoc, Grouping.read_spaces blank] at read
  obtain ⟨text, unbroken, short, told⟩ := exists_of_read_slashes ends read
  rw [moves_doc g blank (unbroken_masked line) rest' ends'] at read'
  have told' := Grouping.strings_prefix read'
  have documented (line : String) (cs : List Char) (spaced : unspaced (.ofList cs) = line) :
      (g.push (Grouping.documentation cs)).strings.map unspaced =
        g.strings.map unspaced ++ [line] := by
    simp [Grouping.documentation, spaced]
  have spaced : unspaced (.ofList (' ' :: text)) = .ofList text := by
    simp [unspaced, Text.dropFront?]
  replace told := documented _ _ spaced ▸ told.map unspaced
  replace told' := documented _ _ (unspaced_docLine _) ▸ told'.map unspaced
  have same := rel_of_prefix strings told told' (by simpa using unbroken)
  have long := length_masked broken
  rw [same, String.length_ofList] at long
  rw [String.length_toList] at short
  omega

theorem eq_of_masks {lines masks : List (List Char)} (alike : List.Forall₂ Masks lines masks)
    (reads : Grouping.Reads masks g k) (final : k.read [] = some target)
    (read : g.read (['\n'].intercalate lines) = some tokens)
    (strings : List.Forall₂ MaskedBy ((bodyStrings tokens).map unspaced)
      ((bodyStrings target).map unspaced)) : lines = masks := by
  induction reads generalizing lines with
  | nil =>
    cases alike
    rfl
  | @cons mask masks g h k moves reads ih =>
    cases alike with
    | @cons line _ lines _ pair others =>
      obtain ⟨rest, ends, shape, step⟩ := exists_intercalate_cons line lines
      obtain ⟨rest', ends', shape', -⟩ := exists_intercalate_cons mask masks
      have read' := (Grouping.Reads.cons moves reads).read_intercalate
      rw [final, shape'] at read'
      rw [shape] at read
      cases pair with
      | same =>
        rw [moves rest ends, step] at read
        rw [ih others final read]
      | broken blank broken =>
        exact (not_masks_of_broken blank broken ends ends' read read' strings).elim

end Walk

section Again

variable {schema : Schema}

theorem tokens?_text_eq_read (schema : Schema) :
    tokens? (text schema) = Grouping.empty.read (['\n'].intercalate (lines schema)) := by
  obtain ⟨entries⟩ := schema
  cases entries with
  | nil => exact Grouping.tokens?_eq_read (by decide)
  | cons entry rest => rw [Grouping.tokens?_eq_read (text_head entry rest), text_eq]

theorem masked_strings (schema : Schema) :
    List.Forall₂ MaskedBy (schema.entries.flatMap entryStrings)
      ((maskedSchema schema).entries.flatMap entryStrings) := by
  obtain ⟨entries⟩ := schema
  induction entries with
  | nil => exact .nil
  | cons entry rest ih => exact List.rel_append (masked_entryStrings entry) ih

/-- A printed table that reads back has nothing to mask. -/
theorem maskedSchema_eq_of_parse_text
    (legible : ∀ entry ∈ (maskedSchema schema).entries, LegibleEntry entry)
    (read : parse (text schema) = .ok schema) : maskedSchema schema = schema := by
  obtain ⟨tokens, found, table⟩ := exists_tokens_of_parse read
  have final := Grouping.read_nil (Table.tokens (maskedSchema schema))
  have target := isTable_of_ofTokens (ofTokens_tokens legible)
  have strings := masked_strings schema
  rw [← strings_of_isTable table, ← strings_of_isTable target] at strings
  rw [tokens?_text_eq_read] at found
  have same := eq_of_masks (masks_lines schema) (reads_lines _ legible) final found strings
  have printed : tokens? (text schema) = tokens? (text (maskedSchema schema)) := by
    rw [tokens?_text_eq_read, tokens?_text_eq_read, same]
  have again := parse_text legible
  rw [parse, ← printed, ← parse, read] at again
  exact (Except.ok.inj again).symm

/-- A table that is read and whose schema compiles reads back from its printed form exactly if no
line of its documentation is broken. -/
theorem reprinted_reads_back_iff {source : String} {compiled : CompiledSchema}
    (read : parse source = .ok schema) (compiles : schema.compile = .ok compiled) :
    parse (text schema) = .ok schema ↔
      ∀ entry ∈ schema.entries, ∀ line ∈ documentation entry, Unbroken line.toList := by
  obtain ⟨wellFormed, -⟩ := Schema.compile_eq_ok compiles
  obtain ⟨_, -, table⟩ := exists_tokens_of_parse read
  have words := lt_of_isTable table
  constructor
  · intro again entry member
    have legible : ∀ entry ∈ (maskedSchema schema).entries, LegibleEntry entry :=
      List.forall_mem_map.mpr fun entry member =>
        legible_maskedEntry wellFormed member (words entry member)
    have entries : schema.entries.map maskedEntry = schema.entries :=
      congrArg Schema.entries (maskedSchema_eq_of_parse_text legible again)
    have same : maskedEntry entry = entry :=
      List.map_inj_left.mp (entries.trans (List.map_id _).symm) entry member
    rw [← same, documentation_maskedEntry]
    exact List.forall_mem_map.mpr fun line _ => unbroken_masked line
  · intro unbroken
    exact parse_text fun entry member =>
      legible_entry wellFormed member (unbroken entry member) (words entry member)

def brokenSource : String := "/** one\n two */ message A = (\"a\", \"h\") \x7b\x7d"

def brokenEntry : Entry := ⟨"A", ⟨"a", "h"⟩, ["one\n two "], .message []⟩

theorem next?_brokenSource (rest : List Char) : next? ("/** one\n two */".toList ++ rest) =
    some (documentationLexemes " one\n two ".toList false, rest) := rfl

theorem shown_letter {c : Char} (letter : c ∈ ['a', 'h']) :
    (Text.Quoted.shown (.ofList [c])).toList = ['"', c, '"'] := by
  have seen : ∀ c ∈ ['a', 'h'], (Text.isCombining c || Text.isUnprintable c) = false := by
    simp only [Text.isCombining, Text.isUnprintable, contains_eq_any]
    exact List.all_iff_forall_prop.mp (by decide +kernel)
  have apart : ∀ c ∈ ['a', 'h'],
      c ≠ '\x00' ∧ c ≠ '\t' ∧ c ≠ '\r' ∧ c ≠ '\n' ∧ c ≠ '\\' ∧ c ≠ '"' := by
    simp
  have apart := apart c letter
  have escaped : Text.Quoted.escape c = [c] := by
    simp [Text.Quoted.escape, apart, seen c letter]
  simp [Text.Quoted.shown, Text.Quoted.encode, escaped, apart]

theorem headLine_brokenEntry : headLine brokenEntry = "message A = (\"a\", \"h\")".toList := by
  have name : (Text.Quoted.shown "a").toList = "\"a\"".toList := shown_letter (by decide)
  have hash : (Text.Quoted.shown "h").toList = "\"h\"".toList := shown_letter (by decide)
  rw [headLine, brokenEntry, name, hash]
  decide

theorem read_empty_group (g : Grouping) (rest : List Char) :
    (g.enter .curly).read ('\x7d' :: rest) = (g.push [.group .curly []]).read rest :=
  Grouping.read_leave_curly [] rest

theorem tokens?_brokenSource : tokens? brokenSource =
    some (Grouping.documentation " one\n two ".toList ++ headTokens brokenEntry ++
      [.group .curly []]) := by
  have shape : brokenSource.toList = "/** one\n two */".toList ++
      ' ' :: (headLine brokenEntry ++ ' ' :: '\x7b' :: '\x7d' :: []) := by
    rw [headLine_brokenEntry]
    decide +kernel
  have front (g : Grouping) (rest : List Char) : g.read ("/** one\n two */".toList ++ rest) =
      (g.push (Grouping.documentation " one\n two ".toList)).read rest :=
    Grouping.read_of_next (next?_brokenSource rest) (Grouping.length_lt_append (by decide) rest)
      fun _ => rfl
  rw [Grouping.tokens?_eq_read (by decide), shape, front, Grouping.read_space,
    read_head _ (by decide), Grouping.read_space, Grouping.read_enter_curly, read_empty_group,
    Grouping.push_push, Grouping.push_push, Grouping.read_nil, List.append_assoc]

theorem parse_brokenSource : parse brokenSource = .ok ⟨[brokenEntry]⟩ := by
  rw [parse, tokens?_brokenSource]
  rfl

theorem compile_brokenSchema : (Schema.mk [brokenEntry]).compile =
    .ok ⟨⟨[brokenEntry]⟩, .ofSchema ⟨[brokenEntry]⟩⟩ := by
  have clean : (Schema.mk [brokenEntry]).diagnostics = [] := by
    decide +kernel
  rw [Schema.compile, clean]

theorem reprinted_reads_back_iff_brokenSource :
    parse brokenSource = .ok ⟨[brokenEntry]⟩ ∧
    (Schema.mk [brokenEntry]).compile = .ok ⟨⟨[brokenEntry]⟩, .ofSchema ⟨[brokenEntry]⟩⟩ ∧
    (parse (text ⟨[brokenEntry]⟩) = .ok ⟨[brokenEntry]⟩ ↔
      ∀ entry ∈ [brokenEntry], ∀ line ∈ documentation entry, Unbroken line.toList) :=
  ⟨parse_brokenSource, compile_brokenSchema,
    reprinted_reads_back_iff parse_brokenSource compile_brokenSchema⟩

theorem tokens?_text_brokenEntry : tokens? (text ⟨[brokenEntry]⟩) =
    some (Grouping.documentation " one".toList ++ [.word "two"] ++ headTokens brokenEntry ++
      [.group .curly []]) := by
  have shape : ['\n'].intercalate (lines ⟨[brokenEntry]⟩) = "///".toList ++ " one".toList ++
      '\n' :: ' ' :: ("two".toList ++ ' ' :: '\n' ::
        (headLine brokenEntry ++ ' ' :: '\x7b' :: '\n' :: '\x7d' :: [])) := by
    rw [lines_singleton, entryLines, headLine_brokenEntry]
    decide +kernel
  rw [tokens?_text_eq_read, shape,
    Grouping.read_documentation (by decide) (by decide) (by decide) (by simp [EndsLine]),
    Grouping.read_feed, Grouping.read_space,
    Grouping.read_word (by decide) (separated_cons (by decide) _), Grouping.read_space,
    Grouping.read_feed, read_head _ (by decide), Grouping.read_space, Grouping.read_enter_curly,
    Grouping.read_feed, read_empty_group]
  simp only [Grouping.push_push]
  rw [Grouping.read_nil]

/-- The second line of the comment stands outside of it in the printed table. -/
theorem not_reprinted_brokenSource :
    parse brokenSource = .ok ⟨[brokenEntry]⟩ ∧
    (Schema.mk [brokenEntry]).compile = .ok ⟨⟨[brokenEntry]⟩, .ofSchema ⟨[brokenEntry]⟩⟩ ∧
    parse (text ⟨[brokenEntry]⟩) =
      .error (.missing [.keyword "message", .keyword "alias", .keyword "service"] false) := by
  refine ⟨parse_brokenSource, compile_brokenSchema, ?_⟩
  rw [parse, tokens?_text_brokenEntry]
  rfl

end Again

end Table

end WireSchema
