import WireSchema.Document.Node
import WireSchema.Proofs.FieldTypes

/-! Schema files written and read again. -/

namespace WireSchema

namespace Schema

def regrouped (schema : Schema) : Schema :=
  ⟨schema.entries.filter (·.body.isMessage) ++ schema.entries.filter (·.body.isAlias) ++
    schema.entries.filter (·.body.isService)⟩

end Schema

namespace Text

variable {cs : List Char}

theorem intercalate_concat {sep last : List Char} {front : List (List Char)}
    (nonempty : front ≠ []) :
    sep.intercalate (front ++ [last]) = sep.intercalate front ++ (sep ++ last) := by
  induction front with
  | nil => exact (nonempty rfl).elim
  | cons line rest ih =>
    cases rest with
    | nil => simp [List.intercalate_cons_cons]
    | cons next rest =>
      have joined := ih (List.cons_ne_nil next rest)
      rw [List.cons_append] at joined
      rw [List.cons_append, List.cons_append, List.intercalate_cons_cons, joined,
        List.intercalate_cons_cons]
      simp only [List.append_assoc]

theorem getLast?_intercalate {sep last : List Char} (front : List (List Char)) (full : last ≠ []) :
    (sep.intercalate (front ++ [last])).getLast? = last.getLast? := by
  obtain ⟨c, ends⟩ := Option.ne_none_iff_exists'.mp (mt List.getLast?_eq_none_iff.mp full)
  by_cases empty : front = []
  · simp [empty]
  · rw [intercalate_concat empty, List.getLast?_append, List.getLast?_append, ends]
    rfl

theorem isBlank_getLast?_trimEnd {c : Char} (last : c ∈ (trimEnd cs).getLast?) :
    isBlank c = false := by
  rw [trimEnd, List.getLast?_reverse] at last
  have kept := List.head?_dropWhile_not isBlank cs.reverse
  rw [Option.mem_def.mp last] at kept
  exact kept

theorem not_mem_splitOn {mark : Char} {part : List Char} (member : part ∈ cs.splitOn mark) :
    mark ∉ part := by
  induction cs generalizing part with
  | nil =>
    rw [List.splitOn_nil, List.mem_singleton] at member
    rw [member]
    exact List.not_mem_nil
  | cons c rest ih =>
    rw [List.splitOn_cons_eq_if_modifyHead] at member
    split at member
    · rcases List.mem_cons.mp member with rfl | later
      · exact List.not_mem_nil
      · exact ih later
    · rename_i differs
      cases parts : rest.splitOn mark with
      | nil => exact (List.splitOn_ne_nil mark rest parts).elim
      | cons first others =>
        rw [parts] at member ih
        rcases List.mem_cons.mp member with rfl | later
        · rintro (_ | ⟨_, inside⟩)
          · exact differs (beq_self_eq_true mark)
          · exact ih List.mem_cons_self inside
        · exact ih (List.mem_cons_of_mem _ later)

/-- A line is what it is in the text, but for a carriage return at its end. -/
theorem exists_part_of_mem_go {line : List Char} {parts : List (List Char)}
    (member : line ∈ lines.go parts) : ∃ part ∈ parts, line ⊆ part := by
  fun_induction lines.go parts with
  | case1 => cases member
  | case2 last empty => cases member
  | case3 last full =>
    rw [List.mem_singleton.mp member]
    exact ⟨last, List.mem_singleton_self last, List.Subset.refl last⟩
  | case4 first rest several ih =>
    rcases List.mem_cons.mp member with rfl | later
    · refine ⟨first, List.mem_cons_self, ?_⟩
      rw [dropLast?]
      split
      · exact List.dropLast_subset first
      · exact List.Subset.refl first
    · obtain ⟨part, inside, subset⟩ := ih later
      exact ⟨part, List.mem_cons_of_mem _ inside, subset⟩

theorem getLast?_go {last : List Char} (front : List (List Char)) (full : last ≠ []) :
    (lines.go (front ++ [last])).getLast? = some last := by
  induction front with
  | nil => simp [lines.go, full]
  | cons line rest ih =>
    rw [List.cons_append, lines.go, List.getLast?_cons, ih]
    · rfl
    · simp

theorem not_mem_of_mem_lines {line : List Char} (member : line ∈ lines cs) : '\n' ∉ line := by
  obtain ⟨part, inside, subset⟩ := exists_part_of_mem_go member
  exact fun feed => not_mem_splitOn inside (subset feed)

/-- The last line of a text that does not end in white space ends like the text. -/
theorem getLast?_lines {c : Char} {last : List Char} (ends : c ∈ cs.getLast?)
    (plain : isBlank c = false) (found : last ∈ (lines cs).getLast?) : c ∈ last.getLast? := by
  obtain ⟨front, final, parts⟩ : ∃ front final, cs.splitOn '\n' = front ++ [final] :=
    (List.eq_nil_or_concat' _).resolve_left (List.splitOn_ne_nil '\n' cs)
  have whole : ['\n'].intercalate (cs.splitOn '\n') = cs := List.intercalate_splitOn '\n'
  rw [parts] at whole
  by_cases full : final = []
  · -- The text would be empty or end in a line feed.
    exfalso
    rw [← whole, full] at ends
    by_cases empty : front = []
    · simp [empty] at ends
    · rw [intercalate_concat empty, List.append_nil, List.getLast?_concat] at ends
      cases ends
      exact absurd plain (by decide)
  · rw [lines, parts, getLast?_go front full] at found
    cases found
    rw [← whole, getLast?_intercalate front full] at ends
    exact ends

end Text

namespace Document

variable {docs : List String} {schema : Schema} {entry : Entry}

/-- Documentation without line breaks inside a line, and without white space at its end. -/
structure Tidy (docs : List String) : Prop where
  unbroken : ∀ line ∈ docs, Table.Unbroken line.toList
  ended : ∀ last ∈ docs.getLast?, ∃ c ∈ last.toList.getLast?, Text.isBlank c = false

theorem tidy_nil : Tidy [] := ⟨nofun, nofun⟩

theorem exists_joinDocs (front : List String) (last : String) :
    ∃ text, joinDocs (front ++ [last]) = some text ∧
      text.toList = ['\n'].intercalate (front.map String.toList ++ [last.toList]) := by
  refine ⟨_, if_neg (by simp), ?_⟩
  rw [String.toList_intercalate, List.map_append]
  rfl

theorem docLines_joinDocs (tidy : Tidy docs) : docLines (joinDocs docs) = docs := by
  rcases docs.eq_nil_or_concat' with rfl | ⟨front, last, rfl⟩
  · rfl
  obtain ⟨c, ends, plain⟩ := tidy.ended last List.getLast?_concat
  have full : last.toList ≠ [] := by
    intro empty
    rw [empty] at ends
    cases ends
  obtain ⟨text, joined, shape⟩ := exists_joinDocs front last
  have trimmed : Text.trimEnd text.toList = text.toList := by
    apply Text.trimEnd_eq_self
    intro d closes
    rw [shape, Text.getLast?_intercalate _ full, Option.mem_def.mp ends] at closes
    cases closes
    exact plain
  have unbroken : ∀ line ∈ front.map String.toList ++ [last.toList], Table.Unbroken line := by
    rw [← List.map_singleton, ← List.map_append, List.forall_mem_map]
    exact tidy.unbroken
  rw [joined, docLines, trimmed, shape, Table.lines_intercalate rfl full unbroken]
  simp

/-- Documentation that is read is tidy, unless it has carriage returns. -/
theorem tidy_docLines (doc? : Option String)
    (clean : ∀ line ∈ docLines doc?, '\r' ∉ line.toList) : Tidy (docLines doc?) := by
  cases doc? with
  | none => exact ⟨nofun, nofun⟩
  | some text =>
    constructor
    · intro line member
      refine ⟨?_, clean line member⟩
      obtain ⟨read, inside, rfl⟩ := List.mem_map.mp member
      rw [String.toList_ofList]
      exact Text.not_mem_of_mem_lines inside
    · intro last found
      rw [docLines, List.getLast?_map, Option.mem_def, Option.map_eq_some_iff] at found
      obtain ⟨read, found, rfl⟩ := found
      cases ends : (Text.trimEnd text.toList).getLast? with
      | none =>
        rw [List.getLast?_eq_none_iff.mp ends] at found
        cases found
      | some c =>
        have plain := Text.isBlank_getLast?_trimEnd ends
        rw [String.toList_ofList]
        exact ⟨c, Text.getLast?_lines ends plain found, plain⟩

theorem tidy_iff : Tidy docs ↔
    (∃ doc?, docLines doc? = docs) ∧ ∀ line ∈ docs, '\r' ∉ line.toList := by
  constructor
  · intro tidy
    refine ⟨⟨joinDocs docs, docLines_joinDocs tidy⟩, fun line member => ?_⟩
    exact (tidy.unbroken line member).2
  · rintro ⟨⟨doc?, rfl⟩, clean⟩
    exact tidy_docLines doc? clean

structure ReadableField (field : Field) : Prop where
  type : field.type.Readable
  docs : Tidy field.docs

structure ReadableEntry (entry : Entry) : Prop where
  docs : Tidy entry.docs
  fields : ∀ fields ∈ entry.body.fieldLists, ∀ field ∈ fields, ReadableField field
  target : ∀ target, entry.body = .alias target → Table.Legible target

section Write

theorem mapM_map_eq_ok {α β ε : Type} {write : α → β} {read : β → Except ε α} {items : List α}
    (each : ∀ item ∈ items, read (write item) = .ok item) :
    (items.map write).mapM read = .ok items := by
  induction items with
  | nil => rfl
  | cons item rest ih =>
    rw [List.map_cons, List.mapM_cons, each item List.mem_cons_self,
      ih fun other member => each other (List.mem_cons_of_mem _ member)]
    rfl

/-- What is written of some items, and read again, are these items. -/
theorem mapM_filterMap_eq_ok {α β ε : Type} {write? : α → Option β} {read : β → Except ε α}
    {keep : α → Bool} {items : List α}
    (each : ∀ item ∈ items, (keep item = false ∧ write? item = none) ∨
      (keep item = true ∧ ∃ record, write? item = some record ∧ read record = .ok item)) :
    (items.filterMap write?).mapM read = .ok (items.filter keep) := by
  induction items with
  | nil => rfl
  | cons item rest ih =>
    have later := ih fun other member => each other (List.mem_cons_of_mem _ member)
    rcases each item List.mem_cons_self with ⟨skipped, unwritten⟩ | ⟨kept, record, written, read⟩
    · rw [List.filterMap_cons_none unwritten, List.filter_cons_of_neg (by simp [skipped]), later]
    · rw [List.filterMap_cons_some written, List.filter_cons_of_pos kept, List.mapM_cons, read,
        later]
      rfl

theorem toField_ofField {field : Field} (readable : ReadableField field) :
    toField (ofField field) = .ok field := by
  rw [toField, ofField, FieldType.parse_text readable.type, docLines_joinDocs readable.docs]
  rfl

theorem toFields_ofFields {fields : List Field} (readable : ∀ field ∈ fields, ReadableField field) :
    (fields.map ofField).mapM toField = .ok fields :=
  mapM_map_eq_ok fun field member => toField_ofField (readable field member)

theorem messageEntry_message? (readable : ReadableEntry entry) {fields : List Field}
    (body : entry.body = .message fields) :
    ∃ record, message? entry = some record ∧ messageEntry record = .ok entry := by
  obtain ⟨name, identity, docs, _⟩ := entry
  cases body
  refine ⟨_, rfl, ?_⟩
  rw [messageEntry, toFields_ofFields (readable.fields fields (List.mem_singleton_self fields)),
    docLines_joinDocs readable.docs]
  rfl

theorem aliasEntry_alias? (readable : ReadableEntry entry) {target : TypeRef}
    (body : entry.body = .alias target) :
    ∃ record, alias? entry = some record ∧ aliasEntry record = .ok entry := by
  obtain ⟨name, identity, docs, _⟩ := entry
  cases body
  have single : FieldType.Readable ⟨target, .one⟩ := ⟨readable.target target rfl, nofun⟩
  have type := FieldType.parse_text single
  rw [FieldType.text] at type
  refine ⟨_, rfl, ?_⟩
  rw [aliasEntry, type, docLines_joinDocs readable.docs]
  rfl

theorem serviceEntry_service? (readable : ReadableEntry entry) {request reply : List Field}
    (body : entry.body = .service request reply) :
    ∃ record, service? entry = some record ∧ serviceEntry record = .ok entry := by
  obtain ⟨name, identity, docs, _⟩ := entry
  cases body
  have first : request ∈ Body.fieldLists (.service request reply) := List.mem_cons_self
  have second : reply ∈ Body.fieldLists (.service request reply) :=
    List.mem_cons_of_mem _ (List.mem_singleton_self reply)
  refine ⟨_, rfl, ?_⟩
  rw [serviceEntry, toFields_ofFields (readable.fields request first),
    toFields_ofFields (readable.fields reply second), docLines_joinDocs readable.docs]
  rfl

theorem toSchema_ofSchema (readable : ∀ entry ∈ schema.entries, ReadableEntry entry) :
    (ofSchema schema).toSchema = .ok schema.regrouped := by
  have messages : (schema.entries.filterMap message?).mapM messageEntry =
      .ok (schema.entries.filter (·.body.isMessage)) := by
    refine mapM_filterMap_eq_ok fun entry member => ?_
    cases body : entry.body with
    | message fields => exact .inr ⟨rfl, messageEntry_message? (readable entry member) body⟩
    | «alias» target => exact .inl ⟨rfl, by rw [message?, body]⟩
    | service request reply => exact .inl ⟨rfl, by rw [message?, body]⟩
  have aliases : (schema.entries.filterMap alias?).mapM aliasEntry =
      .ok (schema.entries.filter (·.body.isAlias)) := by
    refine mapM_filterMap_eq_ok fun entry member => ?_
    cases body : entry.body with
    | message fields => exact .inl ⟨rfl, by rw [alias?, body]⟩
    | «alias» target => exact .inr ⟨rfl, aliasEntry_alias? (readable entry member) body⟩
    | service request reply => exact .inl ⟨rfl, by rw [alias?, body]⟩
  have services : (schema.entries.filterMap service?).mapM serviceEntry =
      .ok (schema.entries.filter (·.body.isService)) := by
    refine mapM_filterMap_eq_ok fun entry member => ?_
    cases body : entry.body with
    | message fields => exact .inl ⟨rfl, by rw [service?, body]⟩
    | «alias» target => exact .inl ⟨rfl, by rw [service?, body]⟩
    | service request reply =>
      exact .inr ⟨rfl, serviceEntry_service? (readable entry member) body⟩
  rw [toSchema, ofSchema, messages, aliases, services]
  rfl

end Write

section Read

theorem exists_of_bind_eq_ok {α β ε : Type} {first : Except ε α} {next : α → Except ε β} {value : β}
    (run : (first >>= next) = .ok value) :
    ∃ middle, first = .ok middle ∧ next middle = .ok value := by
  cases first with
  | error e => cases run
  | ok middle => exact ⟨middle, rfl, run⟩

theorem exists_mem_of_mapM {α β ε : Type} {read : β → Except ε α} {records : List β}
    {items : List α} (run : records.mapM read = .ok items) {item : α} (member : item ∈ items) :
    ∃ record ∈ records, read record = .ok item := by
  induction records generalizing items with
  | nil =>
    cases run
    cases member
  | cons record rest ih =>
    rw [List.mapM_cons] at run
    obtain ⟨first, read, run⟩ := exists_of_bind_eq_ok run
    obtain ⟨others, later, run⟩ := exists_of_bind_eq_ok run
    cases run
    rcases List.mem_cons.mp member with rfl | inside
    · exact ⟨record, List.mem_cons_self, read⟩
    · obtain ⟨other, among, found⟩ := ih later inside
      exact ⟨other, List.mem_cons_of_mem _ among, found⟩

def NoReturns (entry : Entry) : Prop :=
  ∀ line ∈ Table.documentation entry, '\r' ∉ line.toList

theorem NoReturns.field (clean : NoReturns entry) {fields : List Field} {field : Field}
    (listed : fields ∈ entry.body.fieldLists) (member : field ∈ fields) :
    ∀ line ∈ field.docs, '\r' ∉ line.toList := by
  intro line inside
  apply clean line
  apply List.mem_append_right
  exact List.mem_flatMap.mpr ⟨field, List.mem_flatten.mpr ⟨fields, listed, member⟩, inside⟩

theorem readableField_of_toField {record : FieldRecord} {field : Field}
    (read : toField record = .ok field) (clean : ∀ line ∈ field.docs, '\r' ∉ line.toList) :
    ReadableField field := by
  rw [toField] at read
  obtain ⟨type, parsed, read⟩ := exists_of_bind_eq_ok read
  cases read
  exact ⟨FieldType.readable_of_parse parsed, tidy_docLines _ clean⟩

theorem readableField_of_mapM {records : List FieldRecord} {fields : List Field}
    (read : records.mapM toField = .ok fields) (clean : NoReturns entry)
    (listed : fields ∈ entry.body.fieldLists) : ∀ field ∈ fields, ReadableField field := by
  intro field member
  obtain ⟨record, -, made⟩ := exists_mem_of_mapM read member
  exact readableField_of_toField made (clean.field listed member)

theorem readable_of_messageEntry {record : MessageRecord} (read : messageEntry record = .ok entry) :
    entry.body.isMessage = true ∧ (NoReturns entry → ReadableEntry entry) := by
  rw [messageEntry] at read
  obtain ⟨fields, found, read⟩ := exists_of_bind_eq_ok read
  cases read
  refine ⟨rfl, fun clean => ⟨tidy_docLines _ ?_, ?_, nofun⟩⟩
  · exact fun line member => clean line (List.mem_append_left _ member)
  · intro own listed
    rw [List.mem_singleton.mp listed]
    exact readableField_of_mapM found clean (List.mem_singleton_self fields)

theorem readable_of_aliasEntry {record : AliasRecord} (read : aliasEntry record = .ok entry) :
    entry.body.isAlias = true ∧ (NoReturns entry → ReadableEntry entry) := by
  rw [aliasEntry] at read
  obtain ⟨type, parsed, read⟩ := exists_of_bind_eq_ok read
  split at read
  · cases read
    refine ⟨rfl, fun clean => ⟨tidy_docLines _ ?_, nofun, ?_⟩⟩
    · exact fun line member => clean line (List.mem_append_left _ member)
    · rintro target ⟨⟩
      exact (FieldType.readable_of_parse parsed).element
  · cases read

theorem readable_of_serviceEntry {record : ServiceRecord} (read : serviceEntry record = .ok entry) :
    entry.body.isService = true ∧ (NoReturns entry → ReadableEntry entry) := by
  rw [serviceEntry] at read
  obtain ⟨request, asked, read⟩ := exists_of_bind_eq_ok read
  obtain ⟨reply, answered, read⟩ := exists_of_bind_eq_ok read
  cases read
  refine ⟨rfl, fun clean => ⟨tidy_docLines _ ?_, ?_, nofun⟩⟩
  · exact fun line member => clean line (List.mem_append_left _ member)
  · intro own listed
    rcases List.mem_pair.mp listed with rfl | rfl
    · exact readableField_of_mapM asked clean List.mem_cons_self
    · exact readableField_of_mapM answered clean (List.mem_cons_of_mem _ List.mem_cons_self)

theorem filter_eq_nil_of_apart {p q : Body → Bool} {entries : List Entry}
    (all : ∀ entry ∈ entries, p entry.body = true)
    (apart : ∀ body, (p body && q body) = false) : entries.filter (q ·.body) = [] := by
  rw [List.filter_eq_nil_iff]
  intro entry member
  have other := apart entry.body
  rw [all entry member, Bool.true_and] at other
  simp [other]

/-- Entries that are grouped stay as they are. -/
theorem regrouped_append {messages aliases services : List Entry}
    (first : ∀ entry ∈ messages, entry.body.isMessage = true)
    (second : ∀ entry ∈ aliases, entry.body.isAlias = true)
    (third : ∀ entry ∈ services, entry.body.isService = true) :
    Schema.regrouped ⟨messages ++ aliases ++ services⟩ = ⟨messages ++ aliases ++ services⟩ := by
  have onlyMessages : (messages ++ aliases ++ services).filter (·.body.isMessage) = messages := by
    rw [List.filter_append, List.filter_append, List.filter_eq_self.mpr first,
      filter_eq_nil_of_apart second (by rintro (_ | _ | _) <;> rfl),
      filter_eq_nil_of_apart third (by rintro (_ | _ | _) <;> rfl), List.append_nil,
      List.append_nil]
  have onlyAliases : (messages ++ aliases ++ services).filter (·.body.isAlias) = aliases := by
    rw [List.filter_append, List.filter_append, List.filter_eq_self.mpr second,
      filter_eq_nil_of_apart first (by rintro (_ | _ | _) <;> rfl),
      filter_eq_nil_of_apart third (by rintro (_ | _ | _) <;> rfl), List.append_nil,
      List.nil_append]
  have onlyServices : (messages ++ aliases ++ services).filter (·.body.isService) = services := by
    rw [List.filter_append, List.filter_append, List.filter_eq_self.mpr third,
      filter_eq_nil_of_apart first (by rintro (_ | _ | _) <;> rfl),
      filter_eq_nil_of_apart second (by rintro (_ | _ | _) <;> rfl), List.nil_append,
      List.nil_append]
  rw [Schema.regrouped, onlyMessages, onlyAliases, onlyServices]

theorem readable_of_mapM {ρ : Type} {read : ρ → Except SchemaError Entry} {kind : Body → Bool}
    {records : List ρ} {entries : List Entry}
    (each : ∀ record entry, read record = .ok entry →
      kind entry.body = true ∧ (NoReturns entry → ReadableEntry entry))
    (run : records.mapM read = .ok entries) :
    (∀ entry ∈ entries, kind entry.body = true) ∧
      ∀ entry ∈ entries, NoReturns entry → ReadableEntry entry := by
  rw [← forall₂_and]
  intro entry member
  obtain ⟨record, -, made⟩ := exists_mem_of_mapM run member
  exact each record entry made

/-- What a document gives is grouped already, and says what it is. -/
theorem readable_of_toSchema {document : Document} (read : document.toSchema = .ok schema) :
    schema.regrouped = schema ∧
      ∀ entry ∈ schema.entries, NoReturns entry → ReadableEntry entry := by
  rw [toSchema] at read
  obtain ⟨messages, first, read⟩ := exists_of_bind_eq_ok read
  obtain ⟨aliases, second, read⟩ := exists_of_bind_eq_ok read
  obtain ⟨services, third, read⟩ := exists_of_bind_eq_ok read
  cases read
  obtain ⟨areMessages, first⟩ := readable_of_mapM (fun _ _ => readable_of_messageEntry) first
  obtain ⟨areAliases, second⟩ := readable_of_mapM (fun _ _ => readable_of_aliasEntry) second
  obtain ⟨areServices, third⟩ := readable_of_mapM (fun _ _ => readable_of_serviceEntry) third
  refine ⟨regrouped_append areMessages areAliases areServices, ?_⟩
  rw [List.forall_mem_append, List.forall_mem_append]
  exact ⟨⟨first, second⟩, third⟩

end Read

/-- The library reads a record back from the text that it writes for it. -/
def ReadsBack (document : Document) : Prop :=
  (Yaml.parse document.toNode.render).bind ofNode? = some document

instance (document : Document) : Decidable document.ReadsBack :=
  inferInstanceAs (Decidable (_ = _))

end Document

namespace Schema

open Document (Tidy NoReturns ReadableEntry ReadableField)

def documentations (entry : Entry) : List (List String) :=
  entry.docs :: entry.body.fieldLists.flatten.map Field.docs

/-- Documentation is tidy, every type that is not a base type goes by a proper name of its own, and
every length fits a word. -/
structure Writable (schema : Schema) : Prop where
  docs : ∀ entry ∈ schema.entries, ∀ docs ∈ documentations entry, Tidy docs
  names : ∀ entry ∈ schema.entries, ∀ name, .named name ∈ entry.body.elements →
    isIdentifier name ∧ BaseType.ofSpelling? name = none
  words : ∀ entry ∈ schema.entries, ∀ field ∈ entry.body.fieldLists.flatten, ∀ size,
    field.type.cardinality = .array size → size < wordLimit

variable {schema : Schema} {entry : Entry}

theorem Writable.legible (writable : schema.Writable) (member : entry ∈ schema.entries)
    {element : TypeRef} (used : element ∈ entry.body.elements) : Table.Legible element := by
  cases element with
  | base type => exact Table.legible_base type
  | named name =>
    obtain ⟨valid, unreserved⟩ := writable.names entry member name used
    exact Table.legible_named valid unreserved

theorem Writable.readable (writable : schema.Writable) (member : entry ∈ schema.entries) :
    ReadableEntry entry := by
  refine ⟨writable.docs entry member _ List.mem_cons_self, ?_, ?_⟩
  · intro fields listed field inside
    have flat : field ∈ entry.body.fieldLists.flatten :=
      List.mem_flatten.mpr ⟨fields, listed, inside⟩
    have legible := writable.legible member (Body.element_mem_of_field listed inside)
    refine ⟨⟨legible, writable.words entry member field flat⟩, ?_⟩
    exact writable.docs entry member _ (List.mem_cons_of_mem _ (List.mem_map_of_mem flat))
  · intro target body
    apply writable.legible member
    rw [body]
    exact List.mem_singleton_self target

theorem ofYaml_of_readsBack (readsBack : (Document.ofSchema schema).ReadsBack)
    (readable : ∀ entry ∈ schema.entries, ReadableEntry entry) :
    ofYaml schema.toYaml = .ok schema.regrouped := by
  have found : (Yaml.parse schema.toYaml).bind Document.ofNode? =
      some (Document.ofSchema schema) := readsBack
  rw [ofYaml, found]
  exact Document.toSchema_ofSchema readable

/-- A schema that was read from a file without carriage returns in its documentation comes back from
its own file as it is, and every other one that can be written comes back grouped. -/
theorem reloaded (schema : Schema) (readsBack : (Document.ofSchema schema).ReadsBack) :
    (∀ text, ofYaml text = .ok schema → (∀ entry ∈ schema.entries, NoReturns entry) →
      ofYaml schema.toYaml = .ok schema) ∧
    (schema.Writable → ofYaml schema.toYaml = .ok schema.regrouped) := by
  constructor
  · intro text read clean
    rw [ofYaml] at read
    split at read
    · obtain ⟨grouped, readable⟩ := Document.readable_of_toSchema read
      have back := ofYaml_of_readsBack readsBack fun entry member =>
        readable entry member (clean entry member)
      rwa [grouped] at back
    · cases read
  · intro writable
    exact ofYaml_of_readsBack readsBack fun entry member => writable.readable member

def shuffledSchema : Schema :=
  ⟨[⟨"K", ⟨"k", "h"⟩, [], .alias (.base .string)⟩,
    ⟨"P", ⟨"p", "i"⟩, ["One", "", "  two"], .message [⟨"a", ⟨.named "K", .array 3⟩, []⟩]⟩]⟩

/-- The message comes first after the reload; a second one changes nothing any more. -/
theorem reloaded_shuffledSchema :
    (Document.ofSchema shuffledSchema).ReadsBack ∧ shuffledSchema.Writable ∧
    ofYaml shuffledSchema.toYaml = .ok shuffledSchema.regrouped ∧
    shuffledSchema.regrouped.entries.map Entry.name = ["P", "K"] ∧
    ofYaml shuffledSchema.regrouped.toYaml = .ok shuffledSchema.regrouped := by
  have readsBack : (Document.ofSchema shuffledSchema).ReadsBack := by
    decide +kernel
  have tidy : Tidy ["One", "", "  two"] := by
    refine ⟨by simp [Table.Unbroken], ?_⟩
    rintro last ⟨⟩
    exact ⟨'o', rfl, rfl⟩
  have proper : isIdentifier "K" ∧ BaseType.ofSpelling? "K" = none := ⟨by decide, by decide⟩
  have writable : shuffledSchema.Writable := by
    refine ⟨?_, ?_, ?_⟩
    · simp [shuffledSchema, documentations, Body.fieldLists, tidy, Document.tidy_nil]
    · simp [shuffledSchema, Body.elements, proper]
    · simp [shuffledSchema, Body.fieldLists, wordLimit]
  have clean : ∀ entry ∈ shuffledSchema.regrouped.entries, NoReturns entry := by
    simp [shuffledSchema, regrouped, NoReturns, Table.documentation, Body.fieldLists,
      Body.isMessage, Body.isAlias, Body.isService]
  have same : Document.ofSchema shuffledSchema.regrouped = Document.ofSchema shuffledSchema := rfl
  have readsAgain : (Document.ofSchema shuffledSchema.regrouped).ReadsBack := by
    rw [same]
    exact readsBack
  have first := (reloaded shuffledSchema readsBack).2 writable
  have again := (reloaded shuffledSchema.regrouped readsAgain).1 _ first clean
  exact ⟨readsBack, writable, first, rfl, again⟩

end Schema

end WireSchema
