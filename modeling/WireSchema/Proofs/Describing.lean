import WireSchema.Proofs.Borrowing
import WireSchema.Proofs.FixedSize

/-! Descriptions of struct types against what is found to occur in them, round by round. -/

namespace WireSchema

def FieldDescriptor.isVariable (field : FieldDescriptor) : Bool :=
  field.cardinality = .sequence || field.element.isVariable

namespace Descriptor

theorem isVariable_fields (fields : FieldDescriptors) :
    fields.isVariable = fields.toList.any FieldDescriptor.isVariable := by
  induction fields using FieldDescriptors.toList.induct with
  | case1 => simp [FieldDescriptors.isVariable, FieldDescriptors.toList]
  | case2 name element cardinality rest ih =>
    simp [FieldDescriptors.isVariable, FieldDescriptors.toList, FieldDescriptor.isVariable, ih]

/-- A field of array or sequence type says so in its row and not in its element. -/
theorem toList_descriptors_cons (name : String) (type : WireType) (rest : Fields) :
    ∃ row : FieldDescriptor, row.name = name ∧ row.isVariable = type.descriptor.isVariable ∧
      (Fields.cons name type rest).descriptors.toList = row :: rest.descriptors.toList := by
  cases type with
  | array element length =>
    exact ⟨⟨name, element.descriptor, .array length⟩, rfl,
      by simp [FieldDescriptor.isVariable, WireType.descriptor, isVariable],
      by simp [Fields.descriptors, FieldDescriptors.toList]⟩
  | sequence element =>
    exact ⟨⟨name, element.descriptor, .sequence⟩, rfl,
      by simp [FieldDescriptor.isVariable, WireType.descriptor, isVariable],
      by simp [Fields.descriptors, FieldDescriptors.toList]⟩
  | scalar | string | record | «alias» =>
    exact ⟨⟨name, _, .one⟩, rfl, by simp [FieldDescriptor.isVariable]; rfl,
      by simp [Fields.descriptors, FieldDescriptors.toList]⟩

end Descriptor

namespace WireTypeTable

variable {types : WireTypeTable} {table : ContentsTable}

def Agrees (types : WireTypeTable) (table : ContentsTable) : Prop :=
  ∀ name type, types.lookup name = some type →
    type.descriptor.isVariable = (table.get name).borrowed

theorem isVariable_element (agrees : types.Agrees table) {element : TypeRef} {type : WireType}
    (known : types.element? element = some type) :
    type.descriptor.isVariable = (table.ofElement element).borrowed := by
  match element with
  | .base (.scalar kind) =>
    obtain rfl := Option.some.inj known
    rfl
  | .base .string =>
    obtain rfl := Option.some.inj known
    rfl
  | .named name => exact agrees name type known

theorem isVariable_field (agrees : types.Agrees table) {field : Field} {type : WireType}
    (known : types.field? field.type = some type) :
    type.descriptor.isVariable = (table.ofField field).borrowed := by
  obtain ⟨element, found, rfl⟩ := Option.map_eq_some_iff.mp known
  have varies := isVariable_element agrees found
  rw [ContentsTable.ofField]
  cases field.type.cardinality with
  | one => exact varies
  | array length =>
    rw [← varies]
    rfl
  | sequence => rfl

theorem exists_of_fields?_cons {field : Field} {rest : List Field} {made : Fields}
    (known : types.fields? (field :: rest) = some made) :
    ∃ type others, types.field? field.type = some type ∧ types.fields? rest = some others ∧
      made = .cons field.name type others := by
  rw [fields?, Option.bind_eq_bind, Option.bind_eq_some_iff] at known
  obtain ⟨type, first, known⟩ := known
  rw [Option.bind_eq_bind, Option.bind_eq_some_iff] at known
  obtain ⟨others, later, same⟩ := known
  exact ⟨type, others, first, later, (Option.some.inj same).symm⟩

theorem rows_of_fields (agrees : types.Agrees table) {fields : List Field} {made : Fields}
    (known : types.fields? fields = some made) :
    made.descriptors.toList.map (fun row => (row.name, row.isVariable)) =
      fields.map fun field => (field.name, (table.ofField field).borrowed) := by
  induction fields generalizing made with
  | nil =>
    obtain rfl := Option.some.inj known
    rfl
  | cons field rest ih =>
    obtain ⟨type, others, first, later, rfl⟩ := exists_of_fields?_cons known
    obtain ⟨row, name, size, rows⟩ := Descriptor.toList_descriptors_cons field.name type others
    rw [rows, List.map_cons, List.map_cons, ih later, name, size, isVariable_field agrees first]

theorem isVariable_record (agrees : types.Agrees table) {fields : List Field} {made : Fields}
    (known : types.fields? fields = some made) (name : String) (role : Role) :
    (WireType.record name role made).descriptor.isVariable =
      (table.ofFields fields).borrowed := by
  have rows := congrArg (List.any · Prod.snd) (rows_of_fields agrees known)
  simp only [List.any_map] at rows
  have found := table.has_ofParts (fields.map Field.type) .borrowed
  rw [← ContentsTable.ofFields_eq_ofParts, List.any_map] at found
  calc
    _ = made.descriptors.toList.any FieldDescriptor.isVariable := Descriptor.isVariable_fields _
    _ = fields.any fun field => (table.ofField field).borrowed := rows
    _ = (table.ofFields fields).borrowed := found.symm

theorem mem_of_mem_record {fields : List Field} {owner name : String} {role : Role}
    {type : WireType}
    (member : (name, type) ∈
      ((types.fields? fields).map fun made => (owner, WireType.record owner role made)).toList) :
    name = owner ∧ ∃ made, types.fields? fields = some made ∧
      type = .record owner role made := by
  rw [Option.mem_toList, Option.map_eq_some_iff] at member
  obtain ⟨made, known, same⟩ := member
  obtain ⟨rfl, rfl⟩ := Prod.mk.inj same
  exact ⟨rfl, made, known, rfl⟩

/-- What a round makes of an entry stands in both tables. -/
theorem mem_contents_of_mem (agrees : types.Agrees table) {entry : Entry} {name : String}
    {type : WireType} (member : (name, type) ∈ types.ofEntry entry) :
    ∃ contents, (name, contents) ∈ table.ofEntry entry ∧
      type.descriptor.isVariable = contents.borrowed := by
  obtain ⟨own, identity, docs, body⟩ := entry
  cases body with
  | message fields =>
    obtain ⟨rfl, made, known, rfl⟩ := mem_of_mem_record member
    exact ⟨_, List.mem_singleton_self _, isVariable_record agrees known _ _⟩
  | «alias» target =>
    rw [ofEntry, Option.mem_toList, Option.map_eq_some_iff] at member
    obtain ⟨aliased, known, same⟩ := member
    obtain ⟨rfl, rfl⟩ := Prod.mk.inj same
    refine ⟨_, List.mem_singleton_self _, ?_⟩
    rw [WireType.descriptor, isVariable_rename, isVariable_element agrees known]
  | service request reply =>
    rcases List.mem_append.mp member with first | second
    · obtain ⟨rfl, made, known, rfl⟩ := mem_of_mem_record first
      refine ⟨_, List.mem_cons_self, isVariable_record agrees known _ _⟩
    · obtain ⟨rfl, made, known, rfl⟩ := mem_of_mem_record second
      exact ⟨_, List.mem_cons_of_mem _ (List.mem_singleton_self _),
        isVariable_record agrees known _ _⟩

theorem exists_element {element : TypeRef}
    (known : ∀ target, element = .named target → ∃ type, types.lookup target = some type) :
    ∃ type, types.element? element = some type := by
  match element with
  | .base (.scalar kind) => exact ⟨_, rfl⟩
  | .base .string => exact ⟨_, rfl⟩
  | .named target => exact known target rfl

theorem exists_fields {fields : List Field}
    (known : ∀ field ∈ fields, ∀ target, field.type.element = .named target →
      ∃ type, types.lookup target = some type) :
    ∃ made, types.fields? fields = some made := by
  induction fields with
  | nil => exact ⟨.nil, rfl⟩
  | cons field rest ih =>
    obtain ⟨others, later⟩ := ih fun other member => known other (List.mem_cons_of_mem _ member)
    obtain ⟨element, found⟩ := exists_element (known field List.mem_cons_self)
    have first : types.field? field.type = some _ := congrArg (Option.map _) found
    exact ⟨_, by rw [fields?, first, later]; rfl⟩

theorem mem_ofEntry_of_fieldList {entry : Entry} {owner : String} {fields : List Field}
    {made : Fields} (listed : (owner, fields) ∈ entry.fieldLists)
    (known : types.fields? fields = some made) :
    ∃ role, (owner, .record owner role made) ∈ types.ofEntry entry := by
  obtain ⟨name, identity, docs, body⟩ := entry
  cases body with
  | message own =>
    obtain ⟨rfl, rfl⟩ := Prod.mk.inj (List.mem_singleton.mp listed)
    exact ⟨.message, by simp [ofEntry, known]⟩
  | «alias» target => cases listed
  | service request reply =>
    rcases List.mem_cons.mp listed with first | second
    · obtain ⟨rfl, rfl⟩ := Prod.mk.inj first
      exact ⟨.request name, by simp [ofEntry, known]⟩
    · obtain ⟨rfl, rfl⟩ := Prod.mk.inj (List.mem_singleton.mp second)
      exact ⟨.reply name, by simp [ofEntry, known]⟩

theorem map_fst_ofEntry_sublist (types : WireTypeTable) (entry : Entry) :
    ((types.ofEntry entry).map Prod.fst).Sublist (entry.structs.map Prod.fst) := by
  have toList {α : Type} (known : Option α) (made : α → String × WireType) (name : String)
      (named : ∀ value, (made value).1 = name) :
      ((known.map made).toList.map Prod.fst).Sublist [name] := by
    cases known with
    | none => exact List.nil_sublist _
    | some value =>
      rw [Option.map_some, Option.toList_some, List.map_singleton, named]
  obtain ⟨name, identity, docs, body⟩ := entry
  cases body with
  | message fields => exact toList _ _ _ fun _ => rfl
  | «alias» target => exact toList _ _ _ fun _ => rfl
  | service request reply =>
    rw [ofEntry, List.map_append]
    show List.Sublist _ ([requestName name] ++ [replyName name])
    apply List.Sublist.append
    · exact toList _ _ _ fun _ => rfl
    · exact toList _ _ _ fun _ => rfl

end WireTypeTable

theorem Entry.map_snd_fieldLists (entry : Entry) :
    entry.fieldLists.map Prod.snd = entry.body.fieldLists := by
  obtain ⟨name, identity, docs, body⟩ := entry
  cases body <;> rfl

theorem Entry.struct_of_fieldList {entry : Entry} {owner : String} {fields : List Field}
    (listed : (owner, fields) ∈ entry.fieldLists) :
    (owner, fields.map Field.type) ∈ entry.structs := by
  obtain ⟨name, identity, docs, body⟩ := entry
  cases body with
  | message own =>
    obtain ⟨rfl, rfl⟩ := Prod.mk.inj (List.mem_singleton.mp listed)
    exact List.mem_singleton_self _
  | «alias» target => cases listed
  | service request reply =>
    rcases List.mem_cons.mp listed with first | second
    · obtain ⟨rfl, rfl⟩ := Prod.mk.inj first
      exact List.mem_cons_self
    · obtain ⟨rfl, rfl⟩ := Prod.mk.inj (List.mem_singleton.mp second)
      exact List.mem_cons_of_mem _ (List.mem_singleton_self _)

theorem Entry.fieldList_or_alias {entry : Entry} {name : String} {parts : List FieldType}
    (struct : (name, parts) ∈ entry.structs) :
    (∃ fields, (name, fields) ∈ entry.fieldLists ∧ parts = fields.map Field.type) ∨
      ∃ target, entry.body = .alias target ∧ name = entry.name ∧ parts = [⟨target, .one⟩] := by
  obtain ⟨own, identity, docs, body⟩ := entry
  cases body with
  | message fields =>
    obtain ⟨rfl, rfl⟩ := Prod.mk.inj (List.mem_singleton.mp struct)
    exact .inl ⟨fields, List.mem_singleton_self _, rfl⟩
  | «alias» target =>
    obtain ⟨rfl, rfl⟩ := Prod.mk.inj (List.mem_singleton.mp struct)
    exact .inr ⟨target, rfl, rfl, rfl⟩
  | service request reply =>
    rcases List.mem_cons.mp struct with first | second
    · obtain ⟨rfl, rfl⟩ := Prod.mk.inj first
      exact .inl ⟨request, List.mem_cons_self, rfl⟩
    · obtain ⟨rfl, rfl⟩ := Prod.mk.inj (List.mem_singleton.mp second)
      exact .inl ⟨reply, List.mem_cons_of_mem _ (List.mem_singleton_self _), rfl⟩

theorem WireTypeTable.exists_mem_ofEntry {types : WireTypeTable} {entry : Entry} {name : String}
    {parts : List FieldType} (struct : (name, parts) ∈ entry.structs)
    (known : ∀ part ∈ parts, ∀ target, part.element = .named target →
      ∃ type, types.lookup target = some type) :
    ∃ type, (name, type) ∈ types.ofEntry entry := by
  rcases Entry.fieldList_or_alias struct with ⟨fields, listed, rfl⟩ | ⟨target, body, rfl, rfl⟩
  · obtain ⟨made, found⟩ := exists_fields fun field member target element =>
      known field.type (List.mem_map.mpr ⟨field, member, rfl⟩) target element
    obtain ⟨role, member⟩ := mem_ofEntry_of_fieldList listed found
    exact ⟨_, member⟩
  · obtain ⟨aliased, found⟩ := exists_element (known _ (List.mem_singleton_self _))
    exact ⟨.alias entry.name aliased, by simp [ofEntry, body, found]⟩

namespace Schema

variable {schema : Schema} {name : String}

def typesAfter (schema : Schema) (rounds : Nat) : WireTypeTable :=
  Nat.repeat (WireTypeTable.step schema) rounds []

theorem nodup_types_step (distinct : schema.names.Nodup) (types : WireTypeTable) :
    ((WireTypeTable.step schema types).map Prod.fst).Nodup := by
  refine List.Nodup.sublist ?_ (nodup_structs distinct)
  rw [WireTypeTable.step, List.map_flatMap]
  induction schema.entries with
  | nil => exact .slnil
  | cons entry rest ih =>
    rw [List.flatMap_cons, List.flatMap_cons]
    exact (types.map_fst_ofEntry_sublist entry).append ih

theorem get_step_eq (distinct : schema.names.Nodup) {table : ContentsTable} {entry : Entry}
    {contents : Contents} (member : entry ∈ schema.entries)
    (listed : (name, contents) ∈ table.ofEntry entry) :
    (ContentsTable.step schema table).get name = contents := by
  rw [ContentsTable.ofEntry_eq_map_structs] at listed
  obtain ⟨⟨own, parts⟩, struct, same⟩ := List.mem_map.mp listed
  obtain ⟨rfl, rfl⟩ := Prod.mk.inj same
  exact get_step distinct table member struct

theorem agrees_step (distinct : schema.names.Nodup) {types : WireTypeTable}
    {table : ContentsTable} (agrees : types.Agrees table) :
    (WireTypeTable.step schema types).Agrees (ContentsTable.step schema table) := by
  intro name type found
  obtain ⟨entry, member, made⟩ := List.mem_flatMap.mp (mem_of_lookup_eq_some found)
  obtain ⟨contents, listed, varies⟩ := WireTypeTable.mem_contents_of_mem agrees made
  rw [varies, get_step_eq distinct member listed]

theorem agrees_after (distinct : schema.names.Nodup) (rounds : Nat) :
    (schema.typesAfter rounds).Agrees (schema.contentsAfter rounds) := by
  induction rounds with
  | zero =>
    intro name type found
    cases found
  | succ rounds ih => exact agrees_step distinct ih

theorem generates_of_declares (declared : schema.Declares name) : schema.Generates name := by
  rcases declared with ⟨⟨own, identity, docs, body⟩, member, rfl, value⟩
  cases body with
  | message fields => exact ⟨_, member, _, List.mem_singleton_self _⟩
  | «alias» target => exact ⟨_, member, _, List.mem_singleton_self _⟩
  | service request reply => cases value

/-- What a struct leads to has been described one round before the struct. -/
theorem exists_typesAfter (wellFormed : schema.WellFormed) {steps rounds : Nat}
    (generated : schema.Generates name) (ends : schema.EndsWithin steps name)
    (enough : steps < rounds) : ∃ type, (schema.typesAfter rounds).lookup name = some type := by
  induction rounds generalizing steps name with
  | zero => exact (Nat.not_lt_zero steps enough).elim
  | succ rounds ih =>
    rcases generated with ⟨entry, member, parts, struct⟩
    have known : ∀ part ∈ parts, ∀ target, part.element = .named target →
        ∃ type, (schema.typesAfter rounds).lookup target = some type := by
      intro part inside target element
      have leads : schema.LeadsTo name target :=
        ⟨part, ⟨entry, member, parts, struct, inside⟩, element⟩
      obtain ⟨fewer, less, rest⟩ := endsWithin_next ends leads
      exact ih (generates_of_declares (declares_of_leadsTo wellFormed leads)) rest (by omega)
    obtain ⟨type, made⟩ := WireTypeTable.exists_mem_ofEntry struct known
    exact exists_lookup_of_mem (List.mem_flatMap.mpr ⟨entry, member, made⟩)

/-- The last round finds nothing new in the parts of a struct. -/
theorem has_ofPart_last (wellFormed : schema.WellFormed) (what : Occurrence) {part : FieldType}
    (has : schema.HasPart name part) :
    ((schema.contentsAfter schema.entries.length).ofPart part).has what =
      ((schema.contentsAfter (schema.entries.length + 1)).ofPart part).has what := by
  rw [Bool.eq_iff_iff, ContentsTable.has_ofPart_iff, ContentsTable.has_ofPart_iff]
  apply or_congr_right
  apply exists_congr
  intro target
  apply and_congr_right
  intro element
  have distinct := wellFormed.names_distinct
  obtain ⟨fewer, less, rest⟩ :=
    endsWithin_next (endsWithin_length wellFormed name) ⟨part, has, element⟩
  rw [has_contentsAfter_iff distinct rest less, has_contentsAfter_iff distinct rest (by omega)]

/-- What a struct leads to is described before the last round. -/
theorem exists_target (wellFormed : schema.WellFormed) {target : String}
    (leads : schema.LeadsTo name target) :
    ∃ type, (schema.typesAfter schema.entries.length).lookup target = some type := by
  have generated := generates_of_declares (declares_of_leadsTo wellFormed leads)
  obtain ⟨fewer, less, rest⟩ := endsWithin_next (endsWithin_length wellFormed name) leads
  exact exists_typesAfter wellFormed generated rest less

theorem exists_fields (wellFormed : schema.WellFormed) {entry : Entry} {owner : String}
    {fields : List Field} (member : entry ∈ schema.entries)
    (listed : (owner, fields) ∈ entry.fieldLists) :
    ∃ made, (schema.typesAfter schema.entries.length).fields? fields = some made :=
  WireTypeTable.exists_fields fun field inside _ element => exists_target wellFormed
    ⟨field.type, ⟨entry, member, _, Entry.struct_of_fieldList listed,
      List.mem_map.mpr ⟨field, inside, rfl⟩⟩, element⟩

theorem lookup_of_mem_ofEntry (wellFormed : schema.WellFormed) {entry : Entry} {type : WireType}
    {rounds : Nat} (member : entry ∈ schema.entries)
    (made : (name, type) ∈ (schema.typesAfter rounds).ofEntry entry) :
    (schema.typesAfter (rounds + 1)).lookup name = some type :=
  lookup_eq_some_of_mem (nodup_types_step wellFormed.names_distinct _)
    (List.mem_flatMap.mpr ⟨entry, member, made⟩)

theorem rows_typesAfter (wellFormed : schema.WellFormed) {entry : Entry} {owner : String}
    {fields : List Field} (member : entry ∈ schema.entries)
    (listed : (owner, fields) ∈ entry.fieldLists) :
    ∃ type, (schema.typesAfter (schema.entries.length + 1)).lookup owner = some type ∧
      type.descriptor.fields.map (fun row => (row.name, row.isVariable)) =
        fields.map fun field => (field.name,
          ((schema.contentsAfter (schema.entries.length + 1)).ofField field).borrowed) := by
  obtain ⟨made, found⟩ := exists_fields wellFormed member listed
  obtain ⟨role, record⟩ := WireTypeTable.mem_ofEntry_of_fieldList listed found
  refine ⟨.record owner role made, lookup_of_mem_ofEntry wellFormed member record, ?_⟩
  show made.descriptors.toList.map _ = _
  rw [WireTypeTable.rows_of_fields (agrees_after wellFormed.names_distinct _) found]
  apply List.map_congr_left
  intro field inside
  have has : schema.HasPart owner field.type :=
    ⟨entry, member, _, Entry.struct_of_fieldList listed, List.mem_map.mpr ⟨field, inside, rfl⟩⟩
  exact congrArg (Prod.mk field.name) (has_ofPart_last wellFormed .borrowed has)

end Schema

namespace CompiledSchema

variable {schema : Schema} {compiled : CompiledSchema} {name : String}

theorem schema_eq (compiles : schema.compile = .ok compiled) : compiled.schema = schema := by
  obtain ⟨-, rfl⟩ := Schema.compile_eq_ok compiles
  rfl

/-- What is found in a struct is what a chain of references reaches. -/
theorem has_contents_iff (compiles : schema.compile = .ok compiled) (what : Occurrence) :
    (compiled.contents.get name).has what = true ↔ schema.Reaches what name := by
  obtain ⟨wellFormed, rfl⟩ := Schema.compile_eq_ok compiles
  have ends := Schema.endsWithin_length wellFormed name
  exact Schema.has_contentsAfter_iff wellFormed.names_distinct ends (Nat.lt_succ_self _)

theorem borrows_iff (compiles : schema.compile = .ok compiled) :
    compiled.borrows name = true ↔ schema.Reaches .borrowed name :=
  has_contents_iff compiles .borrowed

theorem isCopy_eq_false_iff (compiles : schema.compile = .ok compiled) :
    compiled.isCopy name = false ↔ schema.Reaches .sequence name := by
  rw [isCopy, Bool.not_eq_false']
  exact has_contents_iff compiles .sequence

theorem exists_wireType (compiles : schema.compile = .ok compiled)
    (generated : schema.Generates name) :
    ∃ type, compiled.wireType? name = some type ∧
      type.descriptor.isVariable = compiled.borrows name := by
  obtain ⟨wellFormed, rfl⟩ := Schema.compile_eq_ok compiles
  have ends := Schema.endsWithin_length wellFormed name
  obtain ⟨type, found⟩ :=
    Schema.exists_typesAfter wellFormed generated ends (Nat.lt_succ_self _)
  exact ⟨type, found, Schema.agrees_after wellFormed.names_distinct _ name type found⟩

theorem compile_of_perm (compiles : schema.compile = .ok compiled) {other : Schema}
    (perm : other.entries.Perm schema.entries) :
    ∃ recompiled, other.compile = .ok recompiled ∧ ∀ name,
      recompiled.borrows name = compiled.borrows name ∧
      recompiled.isCopy name = compiled.isCopy name := by
  obtain ⟨wellFormed, -⟩ := Schema.compile_eq_ok compiles
  obtain ⟨recompiled, again⟩ := Schema.compile_eq_ok_iff.mpr (wellFormed.of_perm perm)
  have same (what : Occurrence) (name : String) :
      (recompiled.contents.get name).has what = (compiled.contents.get name).has what := by
    rw [Bool.eq_iff_iff, has_contents_iff again, has_contents_iff compiles]
    exact ⟨Schema.reaches_of_perm perm, Schema.reaches_of_perm perm.symm⟩
  exact ⟨recompiled, again, fun name =>
    ⟨same .borrowed name, congrArg not (same .sequence name)⟩⟩

/-- A struct borrows exactly if a chain of references reaches a string or a sequence, and is not
copied exactly if it reaches a sequence. The order of the entries makes no difference, and the
descriptions of the struct and of its fields say the same. -/
theorem borrows_exact (compiles : schema.compile = .ok compiled) :
    (∀ name, schema.Generates name →
      (compiled.borrows name = true ↔ schema.Reaches .borrowed name) ∧
      (compiled.isCopy name = false ↔ schema.Reaches .sequence name) ∧
      ∃ type, compiled.wireType? name = some type ∧
        type.descriptor.isVariable = compiled.borrows name) ∧
    (∀ entry ∈ schema.entries, ∀ owner fields, (owner, fields) ∈ entry.fieldLists →
      ∃ type, compiled.wireType? owner = some type ∧
        type.descriptor.fields.map (fun row => (row.name, row.isVariable)) =
          fields.map fun field => (field.name, compiled.fieldBorrows field)) ∧
    ∀ other : Schema, other.entries.Perm schema.entries →
      ∃ recompiled, other.compile = .ok recompiled ∧ ∀ name,
        recompiled.borrows name = compiled.borrows name ∧
        recompiled.isCopy name = compiled.isCopy name := by
  refine ⟨?_, ?_, ?_⟩
  · intro name generated
    exact ⟨borrows_iff compiles, isCopy_eq_false_iff compiles, exists_wireType compiles generated⟩
  · intro entry member owner fields listed
    obtain ⟨wellFormed, rfl⟩ := Schema.compile_eq_ok compiles
    exact Schema.rows_typesAfter wellFormed member listed
  · intro other perm
    exact compile_of_perm compiles perm

/-- A service that comes before the alias it uses, an alias of an alias, and a request that
borrows a text and is copied all the same. -/
def chainSchema : Schema :=
  ⟨[⟨"Find", ⟨"demo/Find", "1"⟩, [],
      .service [⟨"key", ⟨.named "Key", .one⟩, []⟩] [⟨"path", ⟨.named "Track", .array 2⟩, []⟩]⟩,
    ⟨"Key", ⟨"demo/Key", "2"⟩, [], .alias (.named "Label")⟩,
    ⟨"Track", ⟨"demo/Track", "3"⟩, [],
      .message [⟨"count", ⟨.base (.scalar .uint8), .one⟩, []⟩,
        ⟨"labels", ⟨.named "Label", .sequence⟩, []⟩]⟩,
    ⟨"Label", ⟨"demo/Label", "4"⟩, [], .alias (.base .string)⟩]⟩

theorem borrows_exact_chainSchema :
    ∃ compiled, chainSchema.compile = .ok compiled ∧
      compiled.borrows "FindRequest" = true ∧ compiled.isCopy "FindRequest" = true ∧
      chainSchema.Reaches .borrowed "FindRequest" ∧
      ¬ chainSchema.Reaches .sequence "FindRequest" ∧
      chainSchema.Reaches .sequence "FindReply" ∧
      ∃ type, compiled.wireType? "Track" = some type ∧
        type.descriptor.fields.map (fun row => (row.name, row.isVariable)) =
          [("count", false), ("labels", true)] := by
  have clean : chainSchema.diagnostics = [] := by
    decide +kernel
  have compiles : chainSchema.compile = .ok ⟨chainSchema, .ofSchema chainSchema⟩ := by
    rw [Schema.compile, clean]
  have borrowed : borrows ⟨chainSchema, .ofSchema chainSchema⟩ "FindRequest" = true := by
    decide +kernel
  have copied : isCopy ⟨chainSchema, .ofSchema chainSchema⟩ "FindRequest" = true := by
    decide +kernel
  have moved : isCopy ⟨chainSchema, .ofSchema chainSchema⟩ "FindReply" = false := by
    decide +kernel
  have request : chainSchema.Generates "FindRequest" :=
    ⟨_, List.mem_cons_self, _, List.mem_cons_self⟩
  have reply : chainSchema.Generates "FindReply" :=
    ⟨_, List.mem_cons_self, _, List.mem_cons_of_mem _ List.mem_cons_self⟩
  obtain ⟨structs, rows, -⟩ := borrows_exact compiles
  obtain ⟨reaches, sequence, -⟩ := structs _ request
  obtain ⟨-, replied, -⟩ := structs _ reply
  refine ⟨_, compiles, borrowed, copied, reaches.mp borrowed, ?_, replied.mp moved, ?_⟩
  · intro reached
    rw [sequence.mpr reached] at copied
    cases copied
  · exact rows _ (List.mem_cons_of_mem _ (List.mem_cons_of_mem _ List.mem_cons_self)) _ _
      List.mem_cons_self

end CompiledSchema

end WireSchema
