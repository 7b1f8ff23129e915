import Mathlib.Data.List.TakeWhile
import WireSchema.Proofs.DeclarationOrder
import WireSchema.Proofs.Rendering
import WireSchema.Proofs.TableDerivation
import WireSchema.Proofs.Violations
import WireSchema.Table.Parser

/-! The declared type that an error is about, recovered from the text of its place. -/

namespace WireSchema

section Text

theorem Site.takeWhile_text {site : Site} (dotless : '.' ∉ site.owner.toList) :
    site.text.toList.takeWhile (· != '.') = site.owner.toList := by
  obtain ⟨owner, field?⟩ := site
  have passed (rest : List Char) : (owner.toList ++ rest).takeWhile (· != '.') =
      owner.toList ++ rest.takeWhile (· != '.') := by
    rw [List.takeWhile_append_of_pos]
    intro c member
    have differs : c ≠ '.' := fun same => dotless (same ▸ member)
    simpa using differs
  cases field? with
  | none => simpa [Site.text] using passed []
  | some field => simpa [Site.text] using passed ('.' :: field.toList)

namespace SchemaError

variable {error : SchemaError} {owner : String}

theorem location?_of_subject? (subject : error.subject? = some owner) :
    ∃ site : Site, site.owner = owner ∧ error.location? = some site.text := by
  cases error with
  | unknownType site _ | serviceAsField site _ | zeroLengthArray site | invalidIdentifier site =>
    exact ⟨site, Option.some.inj subject, rfl⟩
  | duplicateField name _ | duplicateType name | recursiveType name _ | emptyIdentity name
  | reservedTypeName name =>
    exact ⟨.type name, Option.some.inj subject, rfl⟩
  | invalidTypeSyntax | unreadableDocument => cases subject

theorem typeName?_eq (subject : error.subject? = some owner) (dotless : '.' ∉ owner.toList) :
    error.typeName? = some owner := by
  obtain ⟨site, rfl, located⟩ := location?_of_subject? subject
  rw [typeName?, located, Option.map_some, Site.takeWhile_text dotless, String.ofList_toList]

end SchemaError

end Text

namespace Schema

variable {schema : Schema} {error : SchemaError} {owner : String}

section Owners

def ownerAt? (schema : Schema) : Place → Option String
  | .entry i => schema.entries[i]?.map Entry.name
  | .name i => schema.names[i]?
  | .field list _ => schema.fieldLists[list]?.map Prod.fst

/-- The type to which the fault of an error belongs: the one at the place of a violation, or one
that contains itself. -/
inductive Belongs (schema : Schema) : SchemaError → String → Prop
  | violation {error : SchemaError} {owner : String} {violation : Violation}
      (violates : schema.Violates violation error)
      (owned : schema.ownerAt? violation.place = some owner) : Belongs schema error owner
  | cycle {owner : String} {inner : List String}
      (chain : (owner :: inner ++ [owner]).IsChain schema.RefersTo) :
    Belongs schema (.recursiveType owner (owner :: inner ++ [owner])) owner

theorem mem_names_of_ownerAt? {place : Place} (owned : schema.ownerAt? place = some owner) :
    owner ∈ schema.names := by
  cases place with
  | entry i =>
    obtain ⟨entry, stands, rfl⟩ := Option.map_eq_some_iff.mp owned
    exact List.mem_flatMap.mpr ⟨entry, List.mem_of_getElem? stands, entry.name_mem_names⟩
  | name i => exact List.mem_of_getElem? owned
  | field list i =>
    obtain ⟨⟨_, fields⟩, stands, rfl⟩ := Option.map_eq_some_iff.mp owned
    obtain ⟨entry, inside, listed⟩ := List.mem_flatMap.mp (List.mem_of_getElem? stands)
    exact List.mem_flatMap.mpr ⟨entry, inside, Entry.owner_mem_names listed⟩

theorem Misrefers.subject? {site : Site} {name : String}
    (astray : schema.Misrefers site name error) :
    error.subject? = some site.owner := by
  cases astray <;> rfl

/-- An error about a violation is about the type at its place. -/
theorem Violates.subject? {violation : Violation} (violates : schema.Violates violation error) :
    ∃ owner, schema.ownerAt? violation.place = some owner ∧ error.subject? = some owner := by
  cases violates with
  | entryName stands | identity stands =>
    exact ⟨_, congrArg (Option.map Entry.name) stands, rfl⟩
  | target stands _ astray =>
    exact ⟨_, congrArg (Option.map Entry.name) stands, astray.subject?⟩
  | reserved stands | repeatedName stands => exact ⟨_, stands, rfl⟩
  | fieldName listed | repeatedField listed | emptyArray listed =>
    exact ⟨_, congrArg (Option.map Prod.fst) listed, rfl⟩
  | element listed _ _ astray =>
    exact ⟨_, congrArg (Option.map Prod.fst) listed, astray.subject?⟩

theorem Belongs.subject? (belongs : schema.Belongs error owner) : error.subject? = some owner := by
  cases belongs with
  | violation violates owned =>
    obtain ⟨_, owned', subject⟩ := violates.subject?
    cases owned.symm.trans owned'
    exact subject
  | cycle => rfl

theorem Belongs.mem_names (belongs : schema.Belongs error owner) : owner ∈ schema.names := by
  cases belongs with
  | violation _ owned => exact mem_names_of_ownerAt? owned
  | cycle chain =>
    obtain ⟨entry, inside, rfl, -⟩ := declares_of_leads (transGen_of_isChain chain)
    exact List.mem_flatMap.mpr ⟨entry, inside, entry.name_mem_names⟩

/-- Apart from the cycles, an error tells of a violation. -/
theorem exists_belongs (member : error ∈ schema.diagnostics) :
    ∃ owner, schema.Belongs error owner := by
  cases recursive : error.isRecursive with
  | true =>
    have cycle : error ∈ schema.cycles := by
      rw [← filter_diagnostics]
      exact List.mem_filter.mpr ⟨member, recursive⟩
    obtain ⟨name, inner, rfl, chain⟩ := reports_of_mem_cycles cycle
    exact ⟨name, .cycle (chain.imp fun _ _ => refersTo_of_refers)⟩
  | false =>
    obtain ⟨found, -, exact, told⟩ := lists_diagnostics schema
    have listed : error ∈ found.map Prod.snd := by
      rw [told, ← filter_not_recursive]
      exact List.mem_filter.mpr ⟨member, by rw [recursive]; rfl⟩
    obtain ⟨⟨violation, _⟩, inside, rfl⟩ := List.mem_map.mp listed
    have violates := ((exact _ _).mp inside).2
    obtain ⟨owner, owned, -⟩ := violates.subject?
    exact ⟨owner, .violation violates owned⟩

theorem dotless_names (dotless : ∀ entry ∈ schema.entries, '.' ∉ entry.name.toList) :
    ∀ name ∈ schema.names, '.' ∉ name.toList := by
  intro name member
  obtain ⟨entry, inside, generated⟩ := List.mem_flatMap.mp member
  have bare := dotless entry inside
  rw [Entry.names] at generated
  cases shape : entry.body with
  | message | «alias» =>
    rw [shape] at generated
    exact List.mem_singleton.mp generated ▸ bare
  | service request reply =>
    rw [shape] at generated
    simp only [List.mem_cons, List.not_mem_nil, or_false] at generated
    rcases generated with rfl | rfl | rfl <;> simp [requestName, replyName, bare]

theorem typeName?_of_belongs (dotless : ∀ entry ∈ schema.entries, '.' ∉ entry.name.toList)
    (belongs : schema.Belongs error owner) : error.typeName? = some owner :=
  SchemaError.typeName?_eq belongs.subject? (dotless_names dotless owner belongs.mem_names)

end Owners

end Schema

namespace Table

open Token

section Spans

variable {schema : Schema} {name : String} {i : Nat}

theorem mem_spans_iff : (name, i) ∈ Spans.ofSchema schema ↔
    ∃ entry, schema.entries[i]? = some entry ∧ name ∈ entry.names := by
  simp [Spans.ofSchema, List.mem_flatMap, List.mem_zipIdx_iff_getElem?,
    Schema.generatedNames_eq]

theorem exists_find?_spans (member : name ∈ schema.names) :
    ∃ i entry, (Spans.ofSchema schema).find? name = some i ∧ schema.entries[i]? = some entry ∧
      name ∈ entry.names := by
  obtain ⟨entry, inside, generated⟩ := List.mem_flatMap.mp member
  obtain ⟨i, stands⟩ := List.mem_iff_getElem?.mp inside
  have recorded := mem_spans_iff.mpr ⟨entry, stands, generated⟩
  have recorded : ((Spans.ofSchema schema).reverse.find? (·.1 == name)).isSome := by
    rw [List.find?_isSome]
    exact ⟨_, List.mem_reverse.mpr recorded, beq_self_eq_true name⟩
  obtain ⟨⟨found, last⟩, first⟩ := Option.isSome_iff_exists.mp recorded
  obtain rfl : found = name := by simpa using List.find?_some first
  have listed := List.mem_reverse.mp (List.mem_of_find?_eq_some first)
  obtain ⟨entry, stands, generated⟩ := mem_spans_iff.mp listed
  exact ⟨last, entry, by rw [Spans.find?, first]; rfl, stands, generated⟩

end Spans

section Words

theorem not_startsWord_dot : startsWord '.' = false := by
  rw [startsWord, Text.isWordStart, contains_eq_any]
  decide +kernel

theorem not_isWordRest_dot : Text.isWordRest '.' = false := by
  rw [Text.isWordRest, contains_eq_any]
  decide +kernel

variable {cs name rest : List Char} {token : TokenTree} {lexemes : List Lexeme}

theorem dotless_word? (found : word? cs = some (name, rest)) : '.' ∉ name := by
  cases cs with
  | nil => cases found
  | cons c cs =>
    rw [word?] at found
    split at found
    · rename_i starts
      cases found
      intro member
      rcases List.mem_cons.mp member with rfl | inside
      · rw [not_startsWord_dot] at starts
        cases starts
      · have follows := List.mem_takeWhile_imp inside
        rw [not_isWordRest_dot] at follows
        cases follows
    · cases found

theorem dotless_markedWord? (found : markedWord? cs = some (name, rest)) : '.' ∉ name := by
  unfold markedWord? at found
  split at found
  · obtain ⟨⟨word, _⟩, read, kept⟩ := Option.bind_eq_some_iff.mp found
    dsimp only at kept
    split at kept
    · cases kept
    · cases kept
      simpa using dotless_word? read
  · exact dotless_word? found

/-- No word with a dot. What is inside groups does not matter. -/
def Dotless : TokenTree → Prop
  | .word name => '.' ∉ name.toList
  | _ => True

theorem dotless_mark? (found : mark? cs = some (token, rest)) : Dotless token := by
  unfold mark? at found
  split at found
  · cases found
  · split at found
    · split at found
      · cases found
      · split at found
        · cases found
        · split at found
          · cases found
          · cases found
            trivial
    · cases found
      trivial
    · cases found

theorem dotless_leaf? (found : leaf? cs = some (token, rest)) : Dotless token := by
  rw [leaf?] at found
  split at found
  · cases found
    trivial
  · split at found
    · rename_i marked
      exact dotless_mark? (marked.trans found)
    · split at found
      · cases found
      · obtain ⟨⟨name, _⟩, word, same⟩ := Option.map_eq_some_iff.mp found
        cases same
        rw [Dotless, String.toList_ofList]
        exact dotless_markedWord? word

theorem dotless_next? (found : next? cs = some (lexemes, rest)) :
    ∀ token, .leaf token ∈ lexemes → Dotless token := by
  intro token member
  unfold next? at found
  split at found
  · cases found
    cases member
  · split at found
    · cases found
      simp only [documentationLexemes, List.mem_append, List.mem_singleton, Lexeme.leaf.injEq]
        at member
      rcases member with (rfl | mark) | rfl
      · trivial
      · split at mark
        · cases List.mem_singleton.mp mark
          trivial
        · cases mark
      · trivial
    · split at found
      · cases found
        cases List.mem_singleton.mp member
        trivial
      · split at found
        any_goals
          cases found
          cases List.mem_singleton.mp member
        obtain ⟨⟨_, _⟩, leaf, same⟩ := Option.map_eq_some_iff.mp found
        cases same
        cases List.mem_singleton.mp member
        exact dotless_leaf? leaf

theorem dotless_scan (found : scan cs = some lexemes) :
    ∀ token, .leaf token ∈ lexemes → Dotless token := by
  fun_induction scan cs generalizing lexemes with
  | case1 =>
    cases found
    exact fun _ member => absurd member List.not_mem_nil
  | case2 => cases found
  | case3 cs _ first rest next shorter ih =>
    obtain ⟨others, scanned, rfl⟩ := Option.map_eq_some_iff.mp found
    intro token member
    rcases List.mem_append.mp member with front | behind
    · exact dotless_next? next token front
    · exact ih scanned token behind
  | case4 => cases found

/-- Words stay as they are when the lexemes are put into groups. -/
theorem dotless_nest {outer : List (Bracket × List TokenTree)} {inner tokens : List TokenTree}
    (found : nest outer inner lexemes = some tokens)
    (leaves : ∀ token, .leaf token ∈ lexemes → Dotless token)
    (before : ∀ pair ∈ outer, ∀ token ∈ pair.2, Dotless token)
    (since : ∀ token ∈ inner, Dotless token) : ∀ token ∈ tokens, Dotless token := by
  induction lexemes generalizing outer inner with
  | nil =>
    rw [nest] at found
    split at found
    · cases found
      simpa using since
    · cases found
  | cons lexeme rest ih =>
    have later : ∀ token, .leaf token ∈ rest → Dotless token := fun token member =>
      leaves token (List.mem_cons_of_mem _ member)
    cases lexeme with
    | leaf token =>
      rw [nest] at found
      exact ih found later before
        (List.forall_mem_cons.mpr ⟨leaves token List.mem_cons_self, since⟩)
    | opening bracket =>
      rw [nest] at found
      exact ih found later (List.forall_mem_cons.mpr ⟨since, before⟩) (List.forall_mem_nil _)
    | closing bracket =>
      cases outer with
      | nil =>
        rw [nest] at found
        cases found
      | cons pair outer =>
        rw [nest] at found
        split at found
        · rw [List.forall_mem_cons] at before
          exact ih found later before.2 (List.forall_mem_cons.mpr ⟨trivial, before.1⟩)
        · cases found

theorem dotless_tokens? {text : String} {tokens : List TokenTree}
    (found : tokens? text = some tokens) : ∀ token ∈ tokens, Dotless token := by
  obtain ⟨lexemes, scanned, grouped⟩ := Option.bind_eq_some_iff.mp found
  exact dotless_nest grouped (dotless_scan scanned) (List.forall_mem_nil _)
    (List.forall_mem_nil _)

end Words

section Names

variable {schema : Schema} {lone : Prop} {tokens : List TokenTree}

theorem word_mem_of_isEntry {entry : Entry} (declared : Grammar.IsEntry lone tokens entry) :
    .word entry.name ∈ tokens := by
  cases declared with
  | message _ headed _ | «alias» _ headed _ | service _ headed _ _ =>
    cases headed
    simp

theorem word_mem_of_isTable {entries : List Entry}
    (table : Grammar.Many (Grammar.IsEntry lone) tokens entries) :
    ∀ entry ∈ entries, .word entry.name ∈ tokens := by
  induction table with
  | nil => exact List.forall_mem_nil _
  | cons head _ ih =>
    rw [List.forall_mem_cons]
    exact ⟨List.mem_append_left _ (word_mem_of_isEntry head),
      fun entry member => List.mem_append_right _ (ih entry member)⟩

theorem dotless_of_parse {text : String} (read : parse text = .ok schema) :
    ∀ entry ∈ schema.entries, '.' ∉ entry.name.toList := by
  intro entry member
  obtain ⟨tokens, found, table⟩ := exists_tokens_of_parse read
  exact dotless_tokens? found _ (word_mem_of_isTable table entry member)

end Names

/-- Where no entry has a dot in its name, an error is about the type to which its fault belongs, and
this is a generated name of the schema. So a message about a table that can be read points at an
entry that generates this type. -/
theorem errors_name_their_type (schema : Schema) :
    ((∀ entry ∈ schema.entries, '.' ∉ entry.name.toList) →
      ∀ error ∈ schema.diagnostics, ∃ name ∈ schema.names, error.typeName? = some name ∧
        ∀ owner, schema.Belongs error owner ↔ owner = name) ∧
    ∀ text, parse text = .ok schema → ∀ error ∈ schema.diagnostics,
      ∃ i entry name, spanOf? schema error = some i ∧ schema.entries[i]? = some entry ∧
        name ∈ entry.names ∧ schema.Belongs error name := by
  constructor
  · intro dotless error member
    obtain ⟨name, belongs⟩ := Schema.exists_belongs member
    refine ⟨name, belongs.mem_names, Schema.typeName?_of_belongs dotless belongs, fun owner => ?_⟩
    constructor
    · intro other
      exact Option.some.inj (other.subject?.symm.trans belongs.subject?)
    · rintro rfl
      exact belongs
  · intro text read error member
    obtain ⟨name, belongs⟩ := Schema.exists_belongs member
    obtain ⟨i, entry, recorded, stands, generated⟩ := exists_find?_spans belongs.mem_names
    refine ⟨i, entry, name, ?_, stands, generated, belongs⟩
    rw [spanOf?, Schema.typeName?_of_belongs (dotless_of_parse read) belongs]
    exact recorded

def astraySchema : Schema :=
  ⟨[⟨"Measure", ⟨"demo/Measure", "1"⟩, [],
      .service [⟨"line", ⟨.named "Line", .one⟩, []⟩] []⟩,
    ⟨"Length", ⟨"demo/Length", "2"⟩, [], .alias (.named "MeasureReply")⟩]⟩

theorem legible_astraySchema : ∀ entry ∈ astraySchema.entries, LegibleEntry entry := by
  have line : Legible (.named "Line") := ⟨by decide, by decide⟩
  have reply : Legible (.named "MeasureReply") := ⟨by decide, by decide⟩
  rw [astraySchema, List.forall_mem_cons, List.forall_mem_singleton]
  constructor
  · refine ⟨by decide, List.forall_mem_nil _, ?_, fun target other => by cases other⟩
    have field : LegibleField ⟨"line", ⟨.named "Line", .one⟩, []⟩ := by
      refine ⟨by decide, line, fun length other => ?_, List.forall_mem_nil _⟩
      cases other
    simpa [Body.fieldLists] using field
  · refine ⟨by decide, List.forall_mem_nil _, List.forall_mem_nil _, fun target same => ?_⟩
    cases same
    exact reply

theorem errors_name_their_type_astraySchema :
    (∀ entry ∈ astraySchema.entries, '.' ∉ entry.name.toList) ∧
    .unknownType (.field "MeasureRequest" "line") "Line" ∈ astraySchema.diagnostics ∧
    (∃ name ∈ astraySchema.names,
      (SchemaError.unknownType (.field "MeasureRequest" "line") "Line").typeName? = some name ∧
      ∀ owner, astraySchema.Belongs (.unknownType (.field "MeasureRequest" "line") "Line") owner ↔
        owner = name) ∧
    parse (text astraySchema) = .ok astraySchema ∧
    .serviceAsField (.type "Length") "MeasureReply" ∈ astraySchema.diagnostics ∧
    ∃ i entry name,
      spanOf? astraySchema (.serviceAsField (.type "Length") "MeasureReply") = some i ∧
      astraySchema.entries[i]? = some entry ∧ name ∈ entry.names ∧
      astraySchema.Belongs (.serviceAsField (.type "Length") "MeasureReply") name := by
  have dotless : ∀ entry ∈ astraySchema.entries, '.' ∉ entry.name.toList := by
    decide
  have told : astraySchema.diagnostics = [.unknownType (.field "MeasureRequest" "line") "Line",
      .serviceAsField (.type "Length") "MeasureReply"] := by
    decide +kernel
  have read := parse_text legible_astraySchema
  obtain ⟨named, placed⟩ := errors_name_their_type astraySchema
  have unknown := named dotless (.unknownType (.field "MeasureRequest" "line") "Line")
    (by simp [told])
  have service := placed _ read (.serviceAsField (.type "Length") "MeasureReply")
    (by simp [told])
  exact ⟨dotless, by simp [told], unknown, read, by simp [told], service⟩

example : spanOf? astraySchema (.unknownType (.field "MeasureRequest" "line") "Line") = some 0 := by
  decide +kernel

end Table

end WireSchema
