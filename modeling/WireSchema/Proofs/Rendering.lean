import WireSchema.Proofs.TableReading
import WireSchema.Report

/-! A printed table reads back as the schema it was printed from. -/

namespace WireSchema.Table

open Token

section Unbroken

variable {a b : List Char}

@[simp] theorem unbroken_nil : Unbroken [] := ⟨List.not_mem_nil, List.not_mem_nil⟩

@[simp] theorem unbroken_cons {c : Char} :
    Unbroken (c :: a) ↔ (c ≠ '\n' ∧ c ≠ '\r') ∧ Unbroken a := by
  simp only [Unbroken, List.mem_cons, not_or, ne_eq, eq_comm (a := c)]
  tauto

@[simp] theorem unbroken_append : Unbroken (a ++ b) ↔ Unbroken a ∧ Unbroken b := by
  simp only [Unbroken, List.mem_append, not_or]
  tauto

theorem unbroken_of_identifier (parts : ∀ c ∈ a, isIdentifierRest c = true) : Unbroken a := by
  constructor
  · intro feed
    exact absurd (parts _ feed) (by decide)
  · intro ret
    exact absurd (parts _ ret) (by decide)

theorem unbroken_name {name : String} (valid : isIdentifier name = true) :
    Unbroken name.toList := by
  obtain ⟨c, cs, shape, start, word⟩ := exists_of_isIdentifier valid
  apply unbroken_of_identifier
  rw [shape, List.forall_mem_cons]
  exact ⟨isIdentifierRest_iff.mpr (.inl start), List.all_eq_true.mp word⟩

/-- The digits of a number may stand in a word. -/
theorem isIdentifierRest_of_mem_toDigits {base n : Nat} {c : Char} (large : 1 < base)
    (small : base ≤ 16) (member : c ∈ Nat.toDigits base n) : isIdentifierRest c = true := by
  have digit : ∀ d < 16, isIdentifierRest d.digitChar = true := by
    decide
  induction n using Nat.strong_induction_on with
  | _ n ih =>
    rcases Nat.lt_or_ge n base with below | above
    · rw [Nat.toDigits_of_lt_base below, List.mem_singleton] at member
      rw [member]
      exact digit n (by omega)
    · rw [Nat.toDigits_of_base_le large above, List.mem_append, List.mem_singleton] at member
      rcases member with front | rfl
      · exact ih (n / base) (Nat.div_lt_self (by omega) large) front
      · have rest := Nat.mod_lt n (by omega : base > 0)
        exact digit (n % base) (by omega)

theorem unbroken_toDigits {base : Nat} (large : 1 < base) (small : base ≤ 16) (n : Nat) :
    Unbroken (Nat.toDigits base n) :=
  unbroken_of_identifier fun _ member => isIdentifierRest_of_mem_toDigits large small member

theorem unbroken_escape (c : Char) : Unbroken (Text.Quoted.escape c) := by
  unfold Text.Quoted.escape
  split
  · simp
  split
  · simp
  split
  · simp
  split
  · simp
  split
  · rename_i ret feed _
    simp [ret, feed]
  split
  · have digits := unbroken_toDigits (by omega) (le_refl 16) c.toNat
    simp [Text.Quoted.byCodePoint, Text.hexNumber, digits]
  · rename_i ret feed _ _
    simp [ret, feed]

theorem unbroken_shown (text : String) : Unbroken (Text.Quoted.shown text).toList := by
  have encoded (cs : List Char) : Unbroken (Text.Quoted.encode .short cs) := by
    induction cs with
    | nil => exact unbroken_nil
    | cons c cs ih => simp [Text.Quoted.encode, unbroken_escape, ih]
  simp [Text.Quoted.shown, encoded]

end Unbroken

section Lines

theorem unbroken_type {type : FieldType} (legible : Legible type.element) :
    Unbroken type.text.toList := by
  have element := unbroken_name legible.valid
  obtain ⟨element', cardinality⟩ := type
  cases cardinality with
  | one => exact element
  | array size =>
    have digits := unbroken_toDigits (by omega) (by omega : 10 ≤ 16) size
    simp [FieldType.text, Nat.repr_eq_ofList_toDigits, element, digits]
  | sequence => simp [FieldType.text, element]

theorem unbroken_docsLines (indent : String) (blank : Unbroken indent.toList)
    {docs : List String} (unbroken : ∀ line ∈ docs, Unbroken line.toList) :
    ∀ line ∈ docsLines indent docs, Unbroken line := by
  intro line member
  obtain ⟨text, inside, rfl⟩ := List.mem_map.mp member
  have plain := unbroken text inside
  rw [docLine]
  split <;> simp [blank, plain]

theorem unbroken_fieldsLines (indent : String) (blank : Unbroken indent.toList)
    {fields : List Field} (legible : ∀ field ∈ fields, LegibleField field) :
    ∀ line ∈ fieldsLines indent fields, Unbroken line := by
  intro line member
  obtain ⟨field, inside, member⟩ := List.mem_flatMap.mp member
  obtain ⟨valid, element, -, docs⟩ := legible field inside
  rcases List.mem_append.mp member with documented | own
  · exact unbroken_docsLines indent blank docs line documented
  · rw [List.mem_singleton.mp own, fieldLine]
    simp [blank, unbroken_name valid, unbroken_type element]

theorem unbroken_headLine {entry : Entry} (valid : isIdentifier entry.name = true) :
    Unbroken (headLine entry) := by
  have keyword := unbroken_name (isIdentifier_keyword entry.body)
  simp [headLine, keyword, unbroken_name valid, unbroken_shown]

theorem unbroken_partLines {head : List Char} (unbroken : Unbroken head) {fields : List Field}
    (legible : ∀ field ∈ fields, LegibleField field) :
    ∀ line ∈ partLines head fields, Unbroken line := by
  simp only [partLines, List.forall_mem_append, List.forall_mem_singleton]
  exact ⟨⟨unbroken, unbroken_fieldsLines "        " (by simp) legible⟩, by simp⟩

theorem unbroken_bodyLines {entry : Entry} (legible : LegibleEntry entry) :
    ∀ line ∈ bodyLines (headLine entry) entry.body, Unbroken line := by
  have fields := legible.fields
  have head := unbroken_headLine legible.valid
  have opening : Unbroken (headLine entry ++ [' ', '\x7b']) := by
    simp [head]
  have closing : Unbroken ['\x7d'] := by
    simp
  cases shape : entry.body with
  | message own =>
    rw [shape] at fields
    have inside := fields own (List.mem_singleton_self _)
    simp only [bodyLines, List.forall_mem_append, List.forall_mem_singleton]
    exact ⟨⟨opening, unbroken_fieldsLines "    " (by simp) inside⟩, closing⟩
  | «alias» target =>
    have valid := (legible.target target shape).valid
    simp [bodyLines, head, unbroken_name valid]
  | service request reply =>
    rw [shape] at fields
    have first := fields request List.mem_cons_self
    have second := fields reply (List.mem_cons_of_mem _ (List.mem_singleton_self _))
    simp only [bodyLines, List.forall_mem_append, List.forall_mem_singleton]
    exact ⟨⟨⟨opening, unbroken_partLines (by simp) first⟩, unbroken_partLines (by simp) second⟩,
      closing⟩

theorem unbroken_entryLines {entry : Entry} (legible : LegibleEntry entry) :
    ∀ line ∈ entryLines entry, Unbroken line := by
  rw [entryLines, List.forall_mem_append]
  exact ⟨unbroken_docsLines "" (by simp) legible.docs, unbroken_bodyLines legible⟩

theorem unbroken_lines {entries : List Entry} (legible : ∀ entry ∈ entries, LegibleEntry entry) :
    ∀ line ∈ lines ⟨entries⟩, Unbroken line := by
  induction entries with
  | nil =>
    intro line member
    cases member
  | cons entry rest ih =>
    rw [List.forall_mem_cons] at legible
    have own := unbroken_entryLines legible.1
    cases rest with
    | nil => rwa [lines_singleton]
    | cons next rest =>
      have later := ih legible.2
      rw [lines_cons_cons, List.forall_mem_append, List.forall_mem_append,
        List.forall_mem_singleton]
      exact ⟨⟨own, unbroken_nil⟩, later⟩

end Lines

section Reading

variable {schema : Schema}

theorem entryText_head (entry : Entry) :
    ∃ c ∈ ['/', 'm', 'a', 's'], (entryText entry).toList.head? = some c := by
  have shape : entryText entry = docsText "" entry.docs ++ (entry.body.keyword ++ (" " ++
      entry.name ++ " = (" ++ Text.Quoted.shown entry.identity.name ++ ", " ++
        Text.Quoted.shown entry.identity.hash ++ ")" ++ bodyText entry.body)) := by
    simp [entryText, String.append_assoc]
  rw [shape, String.toList_append, docsText_eq, String.toList_append]
  cases entry.docs with
  | nil => cases entry.body <;> simp [unlines, docsLines, Body.keyword]
  | cons line docs => exact ⟨'/', by decide, by simp [unlines, docsLines]⟩

theorem text_head (entry : Entry) (rest : List Entry) :
    (text ⟨entry :: rest⟩).toList.head? ≠ some '\ufeff' := by
  obtain ⟨c, listed, head⟩ := entryText_head entry
  have apart : ∀ c ∈ ['/', 'm', 'a', 's'], c ≠ '\ufeff' :=
    List.all_iff_forall_prop.mp (by decide)
  have same : (text ⟨entry :: rest⟩).toList.head? = some c := by
    cases rest with
    | nil => simpa [text] using head
    | cons next rest => simp [text, String.intercalate_cons_cons, head]
  rw [same]
  exact fun equal => apart c listed (Option.some.inj equal)

theorem tokens?_text (legible : ∀ entry ∈ schema.entries, LegibleEntry entry) :
    Token.tokens? (text schema) = some (tokens schema) := by
  obtain ⟨entries⟩ := schema
  cases entries with
  | nil =>
    have unmarked : (text ⟨[]⟩).toList.head? ≠ some '\ufeff' := by
      decide
    rw [Grouping.tokens?_eq_read unmarked]
    exact Grouping.read_nil []
  | cons entry rest =>
    rw [Grouping.tokens?_eq_read (text_head entry rest), text_eq,
      (reads_lines _ legible).read_intercalate, Grouping.read_nil]

/-- The table by itself. -/
theorem parse_text (legible : ∀ entry ∈ schema.entries, LegibleEntry entry) :
    parse (text schema) = .ok schema := by
  rw [parse, tokens?_text legible]
  exact ofTokens_tokens legible

/-- The lines of a table between the braces of its declaration. -/
theorem parse_indented (legible : ∀ entry ∈ schema.entries, LegibleEntry entry) :
    parse (.ofList (Grouping.indented (lines schema))) = .ok schema := by
  have front : (Grouping.indented (lines schema)).head? ≠ some '\ufeff' := by
    cases lines schema with
    | nil => simp [Grouping.indented]
    | cons line lines =>
      rw [Grouping.indented, List.flatMap_cons]
      split <;> simp
  have read := (reads_lines .empty legible).read_indented []
  rw [List.append_nil] at read
  rw [parse, Grouping.tokens?_eq_read (by rwa [String.toList_ofList]), String.toList_ofList, read,
    Grouping.read_nil]
  exact ofTokens_tokens legible

def declaration (body : List TokenTree) : List TokenTree :=
  [.word "hdds_cdr", .mark ':' true, .mark ':' false, .word "schema", .mark '!' false,
    .group .curly body]

theorem read_source (legible : ∀ entry ∈ schema.entries, LegibleEntry entry) :
    Grouping.empty.read (source schema).toList = some (declaration (tokens schema)) := by
  have shape : (source schema).toList =
      "hdds_cdr".toList ++ ':' :: ':' :: ("schema".toList ++ '!' :: ' ' :: '\x7b' :: '\n' ::
        (Grouping.indented (lines schema) ++ '\x7d' :: '\n' :: [])) := by
    rw [source_eq (unbroken_lines legible)]
    simp
  rw [shape, Grouping.read_word (by decide) (separated_cons (by decide) _),
    Grouping.read_mark (by decide), Grouping.read_mark (by decide), startsMark_word (by decide),
    Grouping.read_word (by decide) (separated_cons (by decide) _), Grouping.read_mark (by decide),
    Grouping.read_space, Grouping.read_enter_curly, Grouping.read_feed,
    (reads_lines _ legible).read_indented, Grouping.read_leave_curly, Grouping.read_feed]
  simp only [Grouping.push_push]
  exact Grouping.read_nil _

theorem tokens?_source (legible : ∀ entry ∈ schema.entries, LegibleEntry entry) :
    Token.tokens? (source schema) = some (declaration (tokens schema)) := by
  have front : (source schema).toList.head? ≠ some '\ufeff' := by
    rw [source_eq (unbroken_lines legible)]
    simp
  rw [Grouping.tokens?_eq_read front, read_source legible]

/-- Nothing but the last line feed is trimmed from a source file and put back. -/
theorem render_table (compiled : CompiledSchema) (file : String)
    (legible : ∀ entry ∈ compiled.schema.entries, LegibleEntry entry) :
    (Report.render compiled .table file).toList =
      "// ".toList ++ ("Generated by hdds-cdr-gen from ".toList ++ file.toList ++
        ". Do not edit.".toList) ++ '\n' :: '\n' :: (source compiled.schema).toList := by
  have trimmed (cs : List Char) : Text.trimEnd (cs ++ ['\x7d', '\n']) = cs ++ ['\x7d'] := by
    have feed : Text.isBlank '\n' = true := by
      decide
    have brace : Text.isBlank '\x7d' = false := by
      decide
    simp [Text.trimEnd, feed, brace]
  have shape : (source compiled.schema).toList =
      "hdds_cdr::schema! \x7b\n".toList ++ Grouping.indented (lines compiled.schema) ++
        ['\x7d', '\n'] :=
    source_eq (unbroken_lines legible)
  unfold Report.render
  simp only [shape, trimmed, String.toList_append, String.toList_ofList]
  simp

theorem tokens?_render (compiled : CompiledSchema) {file : String} (line : '\n' ∉ file.toList)
    (legible : ∀ entry ∈ compiled.schema.entries, LegibleEntry entry) :
    Token.tokens? (Report.render compiled .table file) =
      some (declaration (tokens compiled.schema)) := by
  have shape := render_table compiled file legible
  have front : (Report.render compiled .table file).toList.head? ≠ some '\ufeff' := by
    simp [shape]
  have feed : '\n' ∉ "Generated by hdds-cdr-gen from ".toList ++ file.toList ++
      ". Do not edit.".toList := by
    simp [line]
  have ends : EndsLine ('\n' :: '\n' :: (source compiled.schema).toList) := by
    simp [EndsLine]
  rw [Grouping.tokens?_eq_read front, shape, Grouping.read_comment feed ends,
    Grouping.read_feed, Grouping.read_feed, read_source legible]

end Reading

section Legible

variable {schema : Schema}

theorem legible_base (type : BaseType) : Legible (.base type) := by
  constructor
  · cases type with
    | scalar kind => cases kind <;> decide
    | string => decide
  · cases type with
    | scalar kind => cases kind <;> decide
    | string => decide

theorem legible_named {name : String} (valid : isIdentifier name = true)
    (unreserved : BaseType.ofSpelling? name = none) : Legible (.named name) := by
  refine ⟨valid, ?_⟩
  rw [TypeRef.text, TypeRef.ofName, unreserved]

theorem legible_element (wellFormed : schema.WellFormed) {entry : Entry} {element : TypeRef}
    (member : entry ∈ schema.entries) (used : element ∈ entry.body.elements) :
    Legible element := by
  cases element with
  | base type => exact legible_base type
  | named name =>
    obtain ⟨declaring, inside, rfl, -⟩ :=
      wellFormed.references_declared entry member name used
    have own : declaring.name ∈ schema.names :=
      List.mem_flatMap.mpr ⟨declaring, inside, declaring.name_mem_names⟩
    have unreserved : BaseType.ofSpelling? declaring.name = none := by
      rw [← Option.not_isSome_iff_eq_none, Schema.ofSpelling?_isSome_iff, not_exists]
      exact wellFormed.names_unreserved _ own
    exact legible_named (wellFormed.name_valid declaring inside) unreserved

def documentation (entry : Entry) : List String :=
  entry.docs ++ entry.body.fieldLists.flatten.flatMap Field.docs

theorem legible_entry (wellFormed : schema.WellFormed) {entry : Entry}
    (member : entry ∈ schema.entries)
    (unbroken : ∀ line ∈ documentation entry, Unbroken line.toList)
    (words : ∀ field ∈ entry.body.fieldLists.flatten, ∀ size,
      field.type.cardinality = .array size → size < wordLimit) :
    LegibleEntry entry := by
  rw [documentation, List.forall_mem_append] at unbroken
  refine ⟨wellFormed.name_valid entry member, unbroken.1, ?_, ?_⟩
  · intro fields listed field inside
    have flat : field ∈ entry.body.fieldLists.flatten :=
      List.mem_flatten.mpr ⟨fields, listed, inside⟩
    have valid := (wellFormed.fields_wellFormed entry member fields listed).valid field inside
    have element := legible_element wellFormed member (Body.element_mem_of_field listed inside)
    refine ⟨valid, element, words field flat, fun line own => ?_⟩
    exact unbroken.2 line (List.mem_flatMap.mpr ⟨field, flat, own⟩)
  · intro target body
    apply legible_element wellFormed member
    rw [body]
    exact List.mem_singleton_self target

/-- Whatever compiles and has its documentation on whole lines is read back from its table, also
from between the braces and from a source file, which declares the same items as the expanded
one. -/
theorem rendered_reads_back {compiled : CompiledSchema} (compiles : schema.compile = .ok compiled)
    (unbroken : ∀ entry ∈ schema.entries, ∀ line ∈ documentation entry, Unbroken line.toList)
    (words : ∀ entry ∈ schema.entries, ∀ field ∈ entry.body.fieldLists.flatten, ∀ size,
      field.type.cardinality = .array size → size < wordLimit) :
    parse (text schema) = .ok schema ∧
    (∃ body, source schema = "hdds_cdr::schema! \x7b\n" ++ body ++ "\x7d\n" ∧
      parse body = .ok schema) ∧
    (∃ body, Token.tokens? (source schema) = some (declaration body) ∧
      ofTokens body = .ok schema) ∧
    ∀ file : String, '\n' ∉ file.toList →
      ∃ body, Token.tokens? (Report.render compiled .table file) = some (declaration body) ∧
        ∃ table, ofTokens body = .ok table ∧ ∃ again, table.compile = .ok again ∧
          again.items = compiled.items ∧
          Report.render again .expanded file = Report.render compiled .expanded file := by
  obtain ⟨wellFormed, same⟩ := Schema.compile_eq_ok compiles
  have legible : ∀ entry ∈ schema.entries, LegibleEntry entry := fun entry member =>
    legible_entry wellFormed member (unbroken entry member) (words entry member)
  refine ⟨parse_text legible, ?_, ?_, fun file line => ?_⟩
  · refine ⟨_, ?_, parse_indented legible⟩
    apply String.toList_injective
    rw [source_eq (unbroken_lines legible)]
    simp
  · exact ⟨_, tokens?_source legible, ofTokens_tokens legible⟩
  · have printed : compiled.schema = schema := congrArg CompiledSchema.schema same
    have tokens := tokens?_render compiled line (by rwa [printed])
    rw [printed] at tokens
    exact ⟨_, tokens, schema, ofTokens_tokens legible, compiled, compiles, rfl, rfl⟩

/-- Types called like marks of the table, documentation that is empty, begins with spaces or with
slashes, and identities with quotes, backslashes and characters that cannot be seen. -/
def oddSchema : Schema :=
  ⟨[⟨"sequence", ⟨"demo/\"sequence\"", "\\\x00" ++ "7\n"⟩, ["", "  indented", "/ slashed "],
      .message [⟨"message", ⟨.named "request", .sequence⟩, ["one", ""]⟩,
        ⟨"alias", ⟨.base .string, .array 3⟩, []⟩]⟩,
    ⟨"request", ⟨"demo/\u0301\u200b", "é"⟩, [], .alias (.base (.scalar .uint8))⟩,
    ⟨"Ask", ⟨"demo/Ask", "h"⟩, ["last"],
      .service [] [⟨"answer", ⟨.named "sequence", .one⟩, [" "]⟩]⟩]⟩

theorem rendered_reads_back_oddSchema :
    (∃ compiled, oddSchema.compile = .ok compiled) ∧ parse (text oddSchema) = .ok oddSchema ∧
    ∃ body, Token.tokens? (source oddSchema) = some (declaration body) ∧
      ofTokens body = .ok oddSchema := by
  have clean : oddSchema.diagnostics = [] := by
    decide +kernel
  have compiles : oddSchema.compile = .ok ⟨oddSchema, .ofSchema oddSchema⟩ := by
    rw [Schema.compile, clean]
  have unbroken : ∀ entry ∈ oddSchema.entries, ∀ line ∈ documentation entry,
      Unbroken line.toList := by
    simp [oddSchema, documentation, Body.fieldLists, or_imp, forall_and]
  have words : ∀ entry ∈ oddSchema.entries, ∀ field ∈ entry.body.fieldLists.flatten, ∀ size,
      field.type.cardinality = .array size → size < wordLimit := by
    simp [oddSchema, Body.fieldLists, wordLimit]
  obtain ⟨read, -, declared, -⟩ := rendered_reads_back compiles unbroken words
  exact ⟨⟨_, compiles⟩, read, declared⟩

end Legible

end WireSchema.Table
