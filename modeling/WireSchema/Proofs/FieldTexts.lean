import WireSchema.Items.Printer
import WireSchema.Proofs.Describing
import WireSchema.Proofs.Rendering
import WireSchema.Proofs.TypeForms

/-! The description of a record says which fields were declared. -/

namespace WireSchema

namespace Descriptor

def constants : List (String × Descriptor) :=
  [("BOOL", .ofScalar .bool), ("CHAR", .ofScalar .char), ("INT8", .ofScalar .int8),
    ("UINT8", .ofScalar .uint8), ("INT16", .ofScalar .int16), ("UINT16", .ofScalar .uint16),
    ("INT32", .ofScalar .int32), ("UINT32", .ofScalar .uint32), ("INT64", .ofScalar .int64),
    ("UINT64", .ofScalar .uint64), ("FLOAT32", .ofScalar .float32),
    ("FLOAT64", .ofScalar .float64), ("STRING", .ofString)]

theorem name_rename (descriptor : Descriptor) (name : String) :
    (descriptor.rename name).name = name := by
  cases descriptor <;> rfl

end Descriptor

theorem FieldDescriptors.ofList_toList (fields : FieldDescriptors) :
    ofList fields.toList = fields := by
  induction fields using FieldDescriptors.toList.induct with
  | case1 => rfl
  | case2 name element cardinality rest ih => rw [toList, ofList, ih]

section Describe

variable (known : String → Option Descriptor)

def ElementItem.described? : ElementItem → Option Descriptor
  | .base type => Descriptor.constants.lookup type.descriptorName
  | .named name _ => known name

def FieldItem.described? (field : FieldItem) : Option FieldDescriptor :=
  (field.element.described? known).map fun element => ⟨field.name, element, field.cardinality⟩

def Item.described? : Item → Option Descriptor
  | .record name role _ _ _ fields =>
    (fields.mapM (FieldItem.described? known)).map fun rows => .record name role (.ofList rows)
  | .alias name _ _ _ target => (target.described? known).map (.rename name)
  | .service .. | .identity .. => none

end Describe

namespace WireType

def declaredName? : WireType → Option String
  | .record name _ _ | .alias name _ => some name
  | .scalar _ | .string | .array .. | .sequence _ => none

theorem name_descriptor {type : WireType} {name : String}
    (declared : type.declaredName? = some name) :
    type.descriptor.name = name := by
  cases type with
  | record own role fields =>
    cases declared
    rfl
  | «alias» own target =>
    cases declared
    exact Descriptor.name_rename _ _
  | scalar | string | array | sequence => cases declared

def Single : WireType → Prop
  | .array .. | .sequence _ => False
  | .scalar _ | .string | .record .. | .alias .. => True

theorem single_of_declaredName? {type : WireType} {name : String}
    (declared : type.declaredName? = some name) : type.Single := by
  cases type with
  | record | «alias» => trivial
  | scalar | string | array | sequence => cases declared

end WireType

namespace WireTypeTable

variable {types more : WireTypeTable}

def ofCardinality (element : WireType) : Cardinality → WireType
  | .one => element
  | .array length => .array element length
  | .sequence => .sequence element

theorem field?_eq (types : WireTypeTable) (type : FieldType) : types.field? type =
    (types.element? type.element).map fun element => ofCardinality element type.cardinality := by
  rw [field?]
  cases type.cardinality <;> rfl

theorem toList_descriptors_ofCardinality (name : String) {element : WireType}
    (single : element.Single) (cardinality : Cardinality) (rest : Fields) :
    (Fields.cons name (ofCardinality element cardinality) rest).descriptors.toList =
      ⟨name, element.descriptor, cardinality⟩ :: rest.descriptors.toList := by
  cases cardinality with
  | one =>
    cases element with
    | scalar | string | record | «alias» => rfl
    | array | sequence => exact single.elim
  | array length => rfl
  | sequence => rfl

def Declares (types : WireTypeTable) : Prop :=
  ∀ name type, types.lookup name = some type → type.declaredName? = some name

theorem declares_step (schema : Schema) (types : WireTypeTable) :
    (step schema types).Declares := by
  intro name type found
  obtain ⟨⟨own, identity, docs, body⟩, -, made⟩ :=
    List.mem_flatMap.mp (mem_of_lookup_eq_some found)
  cases body with
  | message fields =>
    obtain ⟨rfl, fields, -, rfl⟩ := mem_of_mem_record made
    rfl
  | «alias» target =>
    rw [ofEntry, Option.mem_toList, Option.map_eq_some_iff] at made
    obtain ⟨aliased, -, same⟩ := made
    cases same
    rfl
  | service request reply =>
    rcases List.mem_append.mp made with first | second
    · obtain ⟨rfl, fields, -, rfl⟩ := mem_of_mem_record first
      rfl
    · obtain ⟨rfl, fields, -, rfl⟩ := mem_of_mem_record second
      rfl

/-- An element is described under its own name, an alias not under that of its target. -/
theorem name_element (declares : types.Declares) {element : TypeRef} {type : WireType}
    (known : types.element? element = some type) :
    type.descriptor.name = element.text ∧ type.Single := by
  match element with
  | .base (.scalar kind) =>
    cases known
    exact ⟨rfl, trivial⟩
  | .base .string =>
    cases known
    exact ⟨rfl, trivial⟩
  | .named name =>
    have declared := declares name type known
    exact ⟨WireType.name_descriptor declared, WireType.single_of_declaredName? declared⟩

def describe (types : WireTypeTable) (name : String) : Option Descriptor :=
  (types.lookup name).map WireType.descriptor

theorem described?_element (compiled : CompiledSchema) {element : TypeRef} {type : WireType}
    (known : types.element? element = some type) :
    (compiled.elementItem element).described? types.describe = some type.descriptor := by
  match element with
  | .base (.scalar kind) =>
    cases known
    cases kind <;> rfl
  | .base .string =>
    cases known
    rfl
  | .named name => exact congrArg (Option.map WireType.descriptor) known

/-- A row tells the field that it stands for. -/
structure Tells (row : FieldDescriptor) (field : Field) : Prop where
  name : row.name = field.name
  element : row.element.name = field.type.element.text
  cardinality : row.cardinality = field.type.cardinality

theorem rows_fields (declares : types.Declares) (compiled : CompiledSchema) {fields : List Field}
    {made : Fields} (known : types.fields? fields = some made) :
    (fields.map compiled.fieldItem).mapM (FieldItem.described? types.describe) =
        some made.descriptors.toList ∧
      List.Forall₂ Tells made.descriptors.toList fields := by
  induction fields generalizing made with
  | nil =>
    cases known
    exact ⟨rfl, .nil⟩
  | cons field rest ih =>
    obtain ⟨type, others, first, later, rfl⟩ := exists_of_fields?_cons known
    rw [field?_eq, Option.map_eq_some_iff] at first
    obtain ⟨element, found, rfl⟩ := first
    obtain ⟨named, single⟩ := name_element declares found
    obtain ⟨asked, told⟩ := ih later
    have item : (compiled.fieldItem field).described? types.describe =
        some ⟨field.name, element.descriptor, field.type.cardinality⟩ :=
      congrArg (Option.map _) (described?_element compiled found)
    rw [toList_descriptors_ofCardinality field.name single]
    refine ⟨?_, .cons ⟨rfl, named, rfl⟩ told⟩
    rw [List.map_cons, List.mapM_cons, item, asked]
    rfl

def Extends (types more : WireTypeTable) : Prop :=
  ∀ name type, types.lookup name = some type → more.lookup name = some type

theorem Extends.element (grows : types.Extends more) {element : TypeRef} {type : WireType}
    (known : types.element? element = some type) : more.element? element = some type := by
  match element with
  | .base (.scalar kind) => exact known
  | .base .string => exact known
  | .named name => exact grows name type known

theorem Extends.fields (grows : types.Extends more) {fields : List Field} {made : Fields}
    (known : types.fields? fields = some made) : more.fields? fields = some made := by
  induction fields generalizing made with
  | nil => exact known
  | cons field rest ih =>
    obtain ⟨type, others, first, later, rfl⟩ := exists_of_fields?_cons known
    obtain ⟨element, found, rfl⟩ := Option.map_eq_some_iff.mp first
    have again : more.field? field.type = some _ := congrArg (Option.map _) (grows.element found)
    rw [fields?, again, ih later]
    rfl

theorem Extends.record (grows : types.Extends more) {fields : List Field} {owner name : String}
    {role : Role} {type : WireType}
    (made : (name, type) ∈
      ((types.fields? fields).map fun made => (owner, WireType.record owner role made)).toList) :
    (name, type) ∈
      ((more.fields? fields).map fun made => (owner, WireType.record owner role made)).toList := by
  obtain ⟨rfl, fields, known, rfl⟩ := mem_of_mem_record made
  rw [grows.fields known]
  exact List.mem_singleton_self _

theorem Extends.entry (grows : types.Extends more) {entry : Entry} {name : String}
    {type : WireType} (made : (name, type) ∈ types.ofEntry entry) :
    (name, type) ∈ more.ofEntry entry := by
  obtain ⟨own, identity, docs, body⟩ := entry
  cases body with
  | message fields => exact grows.record made
  | «alias» target =>
    rw [ofEntry, Option.mem_toList, Option.map_eq_some_iff] at made ⊢
    obtain ⟨aliased, known, same⟩ := made
    exact ⟨aliased, grows.element known, same⟩
  | service request reply =>
    rcases List.mem_append.mp made with first | second
    · exact List.mem_append_left _ (grows.record first)
    · exact List.mem_append_right _ (grows.record second)

theorem Extends.step {schema : Schema} (distinct : schema.names.Nodup)
    (grows : types.Extends more) :
    (WireTypeTable.step schema types).Extends (WireTypeTable.step schema more) := by
  intro name type found
  obtain ⟨entry, member, made⟩ := List.mem_flatMap.mp (mem_of_lookup_eq_some found)
  exact lookup_eq_some_of_mem (Schema.nodup_types_step distinct more)
    (List.mem_flatMap.mpr ⟨entry, member, grows.entry made⟩)

end WireTypeTable

namespace Schema

variable {schema : Schema}

theorem declares_typesAfter (schema : Schema) (rounds : Nat) :
    (schema.typesAfter rounds).Declares := by
  cases rounds with
  | zero =>
    intro name type found
    cases found
  | succ rounds => exact WireTypeTable.declares_step schema _

theorem typesAfter_extends (distinct : schema.names.Nodup) (rounds : Nat) :
    (schema.typesAfter rounds).Extends (schema.typesAfter (rounds + 1)) := by
  induction rounds with
  | zero =>
    intro name type found
    cases found
  | succ rounds ih => exact ih.step distinct

end Schema

namespace FieldType

variable {element : TypeRef}

theorem names_text (legible : Table.Legible element) :
    Text.Spaced (Names element) element.text.toList :=
  element?_eq_some_iff.mp (element?_text legible)

theorem counts_toDigits {length : Nat} (small : length < wordLimit) :
    Text.Spaced (Counts length) (Nat.toDigits 10 length) := by
  have spaced := length?_eq_some_iff.mp (length?_toDigits small)
  rw [Text.spaced_iff_trim Counts.visible] at spaced ⊢
  exact spaced

/-- A description has the length behind the element and not in brackets with it, which is read as
the same type. -/
theorem parse_cardinality_text {cardinality : Cardinality}
    (readable : Readable ⟨element, cardinality⟩) :
    parse (cardinality.text element.text) = .ok ⟨element, cardinality⟩ := by
  have legible : Table.Legible element := readable.element
  cases cardinality with
  | one =>
    have same : Cardinality.text .one element.text = text ⟨element, .one⟩ := rfl
    rw [same, parse_text readable]
  | sequence =>
    have same : Cardinality.text .sequence element.text = text ⟨element, .sequence⟩ := rfl
    rw [same, parse_text readable]
  | array length =>
    have written : Written Counts .suffixed
        (element.text.toList ++ '[' :: (Nat.toDigits 10 length ++ [']']))
        ⟨element, .array length⟩ :=
      .suffixed (names_text legible) (counts_toDigits (readable.word length rfl))
    have shape : (Cardinality.text (.array length) element.text).toList =
        element.text.toList ++ '[' :: (Nat.toDigits 10 length ++ [']']) := by
      simp [Cardinality.text]
    rw [parse_eq_ok_iff, shape, Text.trim_eq_self]
    · exact ⟨.suffixed, written⟩
    · intro c head
      rw [List.head?_append_of_ne_nil _ (text_ne_nil legible)] at head
      exact Text.isBlank_identifier (word_text legible c (List.mem_of_head? head))
    · intro c last
      rw [← List.cons_append, ← List.append_assoc, List.getLast?_concat] at last
      cases last
      decide

end FieldType

def Item.structName? : Item → Option String
  | .record name .. | .alias name .. => some name
  | .service .. | .identity .. => none

def Entry.records (entry : Entry) : List (String × Role × List Field) :=
  match entry.body with
  | .message fields => [(entry.name, .message, fields)]
  | .alias _ => []
  | .service request reply =>
    [(requestName entry.name, .request entry.name, request),
      (replyName entry.name, .reply entry.name, reply)]

namespace Entry

variable {entry : Entry} {owner : String} {role : Role} {fields : List Field}

theorem fieldList_of_record (declared : (owner, role, fields) ∈ entry.records) :
    (owner, fields) ∈ entry.fieldLists := by
  have same : entry.fieldLists = entry.records.map fun (owner, _, fields) => (owner, fields) := by
    obtain ⟨name, identity, docs, body⟩ := entry
    cases body <;> rfl
  rw [same]
  exact List.mem_map.mpr ⟨_, declared, rfl⟩

theorem mem_ofEntry_of_record (declared : (owner, role, fields) ∈ entry.records)
    {types : WireTypeTable} {made : Fields} (known : types.fields? fields = some made) :
    (owner, .record owner role made) ∈ types.ofEntry entry := by
  obtain ⟨name, identity, docs, body⟩ := entry
  cases body with
  | message own =>
    cases List.mem_singleton.mp declared
    simp [WireTypeTable.ofEntry, known]
  | «alias» target => cases declared
  | service request reply =>
    rcases List.mem_cons.mp declared with first | second
    · cases first
      simp [WireTypeTable.ofEntry, known]
    · cases List.mem_singleton.mp second
      simp [WireTypeTable.ofEntry, known]

theorem item_of_record (compiled : CompiledSchema)
    (declared : (owner, role, fields) ∈ entry.records) :
    ∃ docs, compiled.recordItem owner role docs fields ∈ compiled.entryItems entry := by
  obtain ⟨name, identity, docs, body⟩ := entry
  cases body with
  | message own =>
    cases List.mem_singleton.mp declared
    exact ⟨_, List.mem_cons_self⟩
  | «alias» target => cases declared
  | service request reply =>
    rcases List.mem_cons.mp declared with first | second
    · cases first
      exact ⟨_, List.mem_cons_self⟩
    · cases List.mem_singleton.mp second
      exact ⟨_, List.mem_cons_of_mem _ List.mem_cons_self⟩

/-- The structs among the items of an entry are its records and the alias that it is. -/
theorem record_or_alias {compiled : CompiledSchema} {item : Item} {name : String}
    (inside : item ∈ compiled.entryItems entry) (named : item.structName? = some name) :
    (∃ role docs fields, (name, role, fields) ∈ entry.records ∧
      item = compiled.recordItem name role docs fields) ∨
    ∃ docs lifetime copied target, entry.body = .alias target ∧ name = entry.name ∧
      item = .alias name docs lifetime copied (compiled.elementItem target) := by
  obtain ⟨own, identity, docs, body⟩ := entry
  cases body with
  | message fields =>
    simp only [CompiledSchema.entryItems, List.mem_cons, List.not_mem_nil, or_false] at inside
    rcases inside with rfl | rfl
    · cases named
      exact .inl ⟨_, _, _, List.mem_singleton_self _, rfl⟩
    · cases named
  | «alias» target =>
    simp only [CompiledSchema.entryItems, List.mem_cons, List.not_mem_nil, or_false] at inside
    rcases inside with rfl | rfl
    · cases named
      exact .inr ⟨_, _, _, target, rfl, rfl, rfl⟩
    · cases named
  | service request reply =>
    simp only [CompiledSchema.entryItems, List.mem_cons, List.not_mem_nil, or_false] at inside
    rcases inside with rfl | rfl | rfl | rfl
    · cases named
      exact .inl ⟨_, _, _, List.mem_cons_self, rfl⟩
    · cases named
      exact .inl ⟨_, _, _, List.mem_cons_of_mem _ (List.mem_singleton_self _), rfl⟩
    · cases named
    · cases named

end Entry

/-- The line of a record, from the names of its fields and the texts of their types. -/
def Descriptor.line (role : Role) (name : String) (fields : List (String × String)) : String :=
  let items := fields.map fun (field, type) => field ++ ": " ++ type
  let body := if items.isEmpty then "" else " " ++ ", ".intercalate items ++ " "
  keyword role ++ " " ++ name ++ " \x7b" ++ body ++ "\x7d"

theorem Descriptor.text_record (name : String) (role : Role) (rows : FieldDescriptors) :
    (record name role rows).text =
      line role name (rows.toList.map fun row => (row.name, row.typeText row.element.name)) := by
  rw [text, line, List.map_map]
  rfl

namespace WireTypeTable

theorem parse_of_tells {row : FieldDescriptor} {field : Field} (tells : Tells row field)
    (readable : field.type.Readable) :
    FieldType.parse (row.typeText row.element.name) = .ok field.type := by
  rw [FieldDescriptor.typeText, tells.cardinality, tells.element]
  exact FieldType.parse_cardinality_text readable

theorem map_parse_of_tells {rows : List FieldDescriptor} {fields : List Field}
    (tells : List.Forall₂ Tells rows fields) (readable : ∀ field ∈ fields, field.type.Readable) :
    rows.map (fun row => FieldType.parse (row.typeText row.element.name)) =
      fields.map fun field => .ok field.type := by
  induction tells with
  | nil => rfl
  | cons first _ ih =>
    rw [List.forall_mem_cons] at readable
    rw [List.map_cons, List.map_cons, parse_of_tells first readable.1, ih readable.2]

end WireTypeTable

namespace CompiledSchema

variable {schema : Schema} {compiled : CompiledSchema} {entry : Entry} {item : Item}
  {name owner : String} {role : Role} {fields : List Field}

def descriptor? (compiled : CompiledSchema) (name : String) : Option Descriptor :=
  (compiled.wireType? name).map WireType.descriptor

theorem descriptor?_eq (compiles : schema.compile = .ok compiled) :
    compiled.descriptor? = (schema.typesAfter (schema.entries.length + 1)).describe := by
  obtain ⟨-, rfl⟩ := Schema.compile_eq_ok compiles
  rfl

theorem descriptor?_of_mem (compiles : schema.compile = .ok compiled)
    (member : entry ∈ schema.entries) {type : WireType}
    (made : (name, type) ∈ (schema.typesAfter schema.entries.length).ofEntry entry) :
    compiled.descriptor? name = some type.descriptor := by
  obtain ⟨wellFormed, -⟩ := Schema.compile_eq_ok compiles
  rw [descriptor?_eq compiles, WireTypeTable.describe,
    Schema.lookup_of_mem_ofEntry wellFormed member made, Option.map_some]

/-- The item of a record describes the record, with a row for each field. -/
theorem described?_record (compiles : schema.compile = .ok compiled)
    (member : entry ∈ schema.entries) (declared : (owner, role, fields) ∈ entry.records)
    (docs : List String) :
    ∃ rows, compiled.descriptor? owner = some (.record owner role rows) ∧
      (compiled.recordItem owner role docs fields).described? compiled.descriptor? =
        some (.record owner role rows) ∧
      List.Forall₂ WireTypeTable.Tells rows.toList fields := by
  obtain ⟨wellFormed, -⟩ := Schema.compile_eq_ok compiles
  have listed := Entry.fieldList_of_record declared
  obtain ⟨made, known⟩ := Schema.exists_fields wellFormed member listed
  have later := (Schema.typesAfter_extends wellFormed.names_distinct _).fields known
  obtain ⟨asked, told⟩ :=
    WireTypeTable.rows_fields (Schema.declares_typesAfter schema _) compiled later
  refine ⟨made.descriptors,
    descriptor?_of_mem compiles member (Entry.mem_ofEntry_of_record declared known), ?_, told⟩
  rw [descriptor?_eq compiles, recordItem, Item.described?, asked, Option.map_some,
    FieldDescriptors.ofList_toList]

/-- The item of an alias describes what the alias stands for, under the name of the alias. -/
theorem described?_alias (compiles : schema.compile = .ok compiled)
    (member : entry ∈ schema.entries) {target : TypeRef} (body : entry.body = .alias target)
    (docs : List String) (lifetime copied : Bool) :
    ∃ descriptor, compiled.descriptor? entry.name = some descriptor ∧
      (Item.alias entry.name docs lifetime copied (compiled.elementItem target)).described?
        compiled.descriptor? = some descriptor := by
  obtain ⟨wellFormed, -⟩ := Schema.compile_eq_ok compiles
  have struct : (entry.name, [⟨target, .one⟩]) ∈ entry.structs := by
    rw [Entry.structs, body]
    exact List.mem_singleton_self _
  have leads (reached : String) (element : target = .named reached) :
      schema.LeadsTo entry.name reached :=
    ⟨⟨target, .one⟩, ⟨entry, member, _, struct, List.mem_singleton_self _⟩, element⟩
  obtain ⟨type, known⟩ := WireTypeTable.exists_element fun reached element =>
    Schema.exists_target wellFormed (leads reached element)
  have made : (entry.name, .alias entry.name type) ∈
      (schema.typesAfter schema.entries.length).ofEntry entry := by
    simp [WireTypeTable.ofEntry, body, known]
  have later := (Schema.typesAfter_extends wellFormed.names_distinct _).element known
  refine ⟨_, descriptor?_of_mem compiles member made, ?_⟩
  rw [descriptor?_eq compiles, Item.described?, WireTypeTable.described?_element compiled later]
  rfl

/-- What the item of a struct describes is the description of the struct. -/
theorem described?_struct (compiles : schema.compile = .ok compiled)
    (inside : item ∈ compiled.items) (named : item.structName? = some name) :
    ∃ descriptor, compiled.descriptor? name = some descriptor ∧
      item.described? compiled.descriptor? = some descriptor := by
  rw [items, schema_eq compiles] at inside
  obtain ⟨entry, member, inside⟩ := List.mem_flatMap.mp inside
  rcases Entry.record_or_alias inside named with
    ⟨role, docs, fields, declared, rfl⟩ | ⟨docs, lifetime, copied, target, body, rfl, rfl⟩
  · obtain ⟨rows, known, described, -⟩ := described?_record compiles member declared docs
    exact ⟨_, known, described⟩
  · exact described?_alias compiles member body docs lifetime copied

theorem readable_of_record (compiles : schema.compile = .ok compiled)
    (member : entry ∈ schema.entries) (declared : (owner, role, fields) ∈ entry.records)
    (words : ∀ field ∈ entry.body.fieldLists.flatten, ∀ size,
      field.type.cardinality = .array size → size < wordLimit) :
    ∀ field ∈ fields, field.type.Readable := by
  obtain ⟨wellFormed, -⟩ := Schema.compile_eq_ok compiles
  intro field inside
  have listed : fields ∈ entry.body.fieldLists := by
    rw [← Entry.map_snd_fieldLists]
    exact List.mem_map.mpr ⟨_, Entry.fieldList_of_record declared, rfl⟩
  exact ⟨Table.legible_element wellFormed member (Body.element_mem_of_field listed inside),
    words field (List.mem_flatten.mpr ⟨fields, listed, inside⟩)⟩

end CompiledSchema

end WireSchema
