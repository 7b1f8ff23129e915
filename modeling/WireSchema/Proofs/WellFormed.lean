import WireSchema.Proofs.Cycle
import WireSchema.Schema.Compiled

/-! Which schemas compile, said without the diagnostics. -/

namespace WireSchema

namespace Body

def fieldLists : Body → List (List Field)
  | .message fields => [fields]
  | .alias _ => []
  | .service request reply => [request, reply]

def elements : Body → List TypeRef
  | .message fields => fields.map (·.type.element)
  | .alias target => [target]
  | .service request reply => (request ++ reply).map (·.type.element)

theorem element_mem_of_field {body : Body} {fields : List Field} {field : Field}
    (listed : fields ∈ body.fieldLists) (member : field ∈ fields) :
    field.type.element ∈ body.elements := by
  cases body with
  | message own =>
    rw [List.mem_singleton.mp listed] at member
    exact List.mem_map.mpr ⟨field, member, rfl⟩
  | «alias» target => cases listed
  | service request reply =>
    have inside : field ∈ request ++ reply := by
      rcases List.mem_cons.mp listed with rfl | later
      · exact List.mem_append_left _ member
      · rw [List.mem_singleton.mp later] at member
        exact List.mem_append_right _ member
    exact List.mem_map.mpr ⟨field, inside, rfl⟩

end Body

def Entry.names (entry : Entry) : List String :=
  match entry.body with
  | .message _ | .alias _ => [entry.name]
  | .service .. => [entry.name, requestName entry.name, replyName entry.name]

theorem Entry.name_mem_names (entry : Entry) : entry.name ∈ entry.names := by
  rw [names]
  cases entry.body <;> simp

namespace Schema

def names (schema : Schema) : List String := schema.entries.flatMap Entry.names

def Declares (schema : Schema) (name : String) : Prop :=
  ∃ entry ∈ schema.entries, entry.name = name ∧ entry.body.isService = false

/-- `name` is a message or an alias that has elements of the type `target`. -/
def RefersTo (schema : Schema) (name target : String) : Prop :=
  ∃ entry ∈ schema.entries, entry.name = name ∧ entry.body.isService = false ∧
    .named target ∈ entry.body.elements

structure FieldsWellFormed (fields : List Field) : Prop where
  valid : ∀ field ∈ fields, isIdentifier field.name
  distinct : (fields.map Field.name).Nodup
  nonempty : ∀ field ∈ fields, field.type.cardinality ≠ .array 0

/-- The rules for a schema. Each is about what stands in the entries, wherever it stands. -/
structure WellFormed (schema : Schema) : Prop where
  name_valid : ∀ entry ∈ schema.entries, isIdentifier entry.name
  identity_visible : ∀ entry ∈ schema.entries,
    ∃ c ∈ entry.identity.name.toList, Text.isBlank c = false
  names_unreserved : ∀ name ∈ schema.names, ∀ base : BaseType, name ∉ base.spellings
  names_distinct : schema.names.Nodup
  fields_wellFormed : ∀ entry ∈ schema.entries, ∀ fields ∈ entry.body.fieldLists,
    FieldsWellFormed fields
  references_declared : ∀ entry ∈ schema.entries, ∀ name,
    .named name ∈ entry.body.elements → schema.Declares name
  acyclic : ∀ name, ¬ Relation.TransGen schema.RefersTo name name

section Order

variable {schema other : Schema}

theorem declares_of_perm (perm : other.entries.Perm schema.entries) {name : String}
    (declared : schema.Declares name) : other.Declares name := by
  rcases declared with ⟨entry, member, rest⟩
  exact ⟨entry, perm.mem_iff.mpr member, rest⟩

theorem refersTo_of_perm (perm : other.entries.Perm schema.entries) {name target : String}
    (refers : other.RefersTo name target) : schema.RefersTo name target := by
  rcases refers with ⟨entry, member, rest⟩
  exact ⟨entry, perm.mem_iff.mp member, rest⟩

theorem WellFormed.of_perm (wellFormed : schema.WellFormed)
    (perm : other.entries.Perm schema.entries) : other.WellFormed where
  name_valid entry member := wellFormed.name_valid entry (perm.mem_iff.mp member)
  identity_visible entry member := wellFormed.identity_visible entry (perm.mem_iff.mp member)
  names_unreserved name member :=
    wellFormed.names_unreserved name ((perm.flatMap_right _).mem_iff.mp member)
  names_distinct := (perm.flatMap_right _).nodup_iff.mpr wellFormed.names_distinct
  fields_wellFormed entry member := wellFormed.fields_wellFormed entry (perm.mem_iff.mp member)
  references_declared entry member name element := declares_of_perm perm
    (wellFormed.references_declared entry (perm.mem_iff.mp member) name element)
  acyclic name leads :=
    wellFormed.acyclic name (Relation.TransGen.mono (fun _ _ => refersTo_of_perm perm) _ _ leads)

end Order

section Names

theorem ofSpelling?_isSome_iff {name : String} :
    (BaseType.ofSpelling? name).isSome ↔ ∃ base : BaseType, name ∈ base.spellings := by
  simp [BaseType.ofSpelling?, BaseType.mem_all]

/-- Names are taken one after the other: none is taken twice, and none was taken before. -/
theorem forall_not_mem_append_singleton {earlier names : List String} {name : String} :
    (∀ other ∈ names, other ∉ earlier ++ [name]) ↔
      name ∉ names ∧ ∀ other ∈ names, other ∉ earlier := by
  constructor
  · intro free
    refine ⟨fun member => free name member (by simp), fun other member => ?_⟩
    have apart := free other member
    simp only [List.mem_append, not_or] at apart
    exact apart.1
  · intro free other member
    have differs : other ≠ name := fun same => free.1 (same ▸ member)
    simpa [differs] using free.2 other member

theorem nameErrors_append (earlier front back : List String) :
    nameErrors earlier (front ++ back) =
      nameErrors earlier front ++ nameErrors (earlier ++ front) back := by
  induction front generalizing earlier with
  | nil => simp [nameErrors]
  | cons name rest ih => simp [nameErrors, ih]

theorem nameErrors_eq_nil_iff {earlier names : List String} :
    nameErrors earlier names = [] ↔
      (∀ name ∈ names, ∀ base : BaseType, name ∉ base.spellings) ∧ names.Nodup ∧
        ∀ name ∈ names, name ∉ earlier := by
  induction names generalizing earlier with
  | nil => simp [nameErrors]
  | cons name rest ih =>
    have reserved : (if (BaseType.ofSpelling? name).isSome then
        [SchemaError.reservedTypeName name] else []) = [] ↔
          ∀ base : BaseType, name ∉ base.spellings := by
      rw [← not_exists, ← ofSpelling?_isSome_iff]
      simp
    have duplicate : (if earlier.contains name then
        [SchemaError.duplicateType name] else []) = [] ↔ name ∉ earlier := by
      simp
    rw [nameErrors, List.append_eq_nil_iff, List.append_eq_nil_iff, reserved, duplicate, ih]
    rw [forall_not_mem_append_singleton]
    simp only [List.forall_mem_cons, List.nodup_cons]
    tauto

theorem generatedNames_eq (entry : Entry) : entry.generatedNames = entry.names := by
  rw [Entry.generatedNames, Entry.generated, Entry.names]
  cases entry.body <;> rfl

theorem entryErrors_eq_nil_iff {earlier : List String} {entries : List Entry} :
    entryErrors earlier entries = [] ↔
      (∀ entry ∈ entries, isIdentifier entry.name) ∧
        (∀ entry ∈ entries, ∃ c ∈ entry.identity.name.toList, Text.isBlank c = false) ∧
        nameErrors earlier (entries.flatMap Entry.names) = [] := by
  induction entries generalizing earlier with
  | nil => simp [entryErrors, nameErrors]
  | cons entry rest ih =>
    have visible : (if entry.identity.name.toList.all Text.isBlank then
        [SchemaError.emptyIdentity entry.name] else []) = [] ↔
          ∃ c ∈ entry.identity.name.toList, Text.isBlank c = false := by
      simp
    have valid : (if isIdentifier entry.name then []
        else [SchemaError.invalidIdentifier (.type entry.name)]) = [] ↔
          isIdentifier entry.name := by
      simp
    rw [entryErrors, List.append_eq_nil_iff, List.append_eq_nil_iff, List.append_eq_nil_iff, valid,
      visible, ih, generatedNames_eq, List.flatMap_cons, nameErrors_append, List.append_eq_nil_iff]
    simp only [List.forall_mem_cons]
    tauto

end Names

section References

variable {schema : Schema}

/-- With distinct names it makes no difference that the last declaration of a name counts. -/
theorem find?_reverse_eq_some {β : Type} {pairs : List (String × β)} {name : String} {value : β}
    (distinct : (pairs.map Prod.fst).Nodup) (member : (name, value) ∈ pairs) :
    pairs.reverse.find? (·.1 == name) = some (name, value) := by
  have present : (pairs.reverse.find? (·.1 == name)).isSome := by
    rw [List.find?_isSome]
    exact ⟨(name, value), List.mem_reverse.mpr member, by simp⟩
  obtain ⟨pair, found⟩ := Option.isSome_iff_exists.mp present
  have inside := List.mem_reverse.mp (List.mem_of_find?_eq_some found)
  have same : pair.1 = name := by simpa using List.find?_some found
  rw [found, List.inj_on_of_nodup_map distinct inside member same]

theorem mem_of_find?_reverse {β : Type} {pairs : List (String × β)} {name : String} {value : β}
    (found : (pairs.reverse.find? (·.1 == name)).map Prod.snd = some value) :
    (name, value) ∈ pairs := by
  obtain ⟨pair, first, rfl⟩ := Option.map_eq_some_iff.mp found
  have same : pair.1 = name := by simpa using List.find?_some first
  rw [← same]
  exact List.mem_reverse.mp (List.mem_of_find?_eq_some first)

theorem map_fst_generated : schema.generated.map Prod.fst = schema.names := by
  rw [generated, List.map_flatMap, names]
  exact congrArg (List.flatMap · schema.entries) (funext generatedNames_eq)

theorem mem_generated_value {entry : Entry} {name : String} :
    (name, NameKind.value) ∈ entry.generated ↔
      entry.name = name ∧ entry.body.isService = false := by
  rw [Entry.generated]
  cases entry.body <;> simp [Body.isService, eq_comm]

theorem kind?_eq_value_iff (distinct : schema.names.Nodup) {name : String} :
    schema.kind? name = some .value ↔ schema.Declares name := by
  rw [← map_fst_generated] at distinct
  constructor
  · intro found
    obtain ⟨entry, member, stands⟩ := List.mem_flatMap.mp (mem_of_find?_reverse found)
    exact ⟨entry, member, mem_generated_value.mp stands⟩
  · intro declared
    rcases declared with ⟨entry, member, stands⟩
    have generated : (name, NameKind.value) ∈ schema.generated :=
      List.mem_flatMap.mpr ⟨entry, member, mem_generated_value.mpr stands⟩
    rw [kind?, find?_reverse_eq_some distinct generated]
    rfl

theorem referenceErrors_eq_nil_iff {site : Site} {element : TypeRef} :
    schema.referenceErrors site element = [] ↔
      ∀ name, element = .named name → schema.kind? name = some .value := by
  cases element with
  | base type => simp [referenceErrors]
  | named name =>
    rw [referenceErrors]
    cases found : schema.kind? name with
    | none => simp [found]
    | some kind => cases kind <;> simp [found]

end References

section Fields

variable {schema : Schema}

theorem fieldErrors_eq_nil_iff {owner : String} {earlier : List String} {fields : List Field} :
    schema.fieldErrors owner earlier fields = [] ↔
      (∀ field ∈ fields, isIdentifier field.name) ∧ (fields.map Field.name).Nodup ∧
        (∀ name ∈ fields.map Field.name, name ∉ earlier) ∧
        (∀ field ∈ fields, field.type.cardinality ≠ .array 0) ∧
        ∀ field ∈ fields, ∀ name, field.type.element = .named name →
          schema.kind? name = some .value := by
  induction fields generalizing earlier with
  | nil => simp [fieldErrors]
  | cons field rest ih =>
    have valid : (if isIdentifier field.name then []
        else [SchemaError.invalidIdentifier (.field owner field.name)]) = [] ↔
          isIdentifier field.name := by
      simp
    have duplicate : (if earlier.contains field.name then
        [SchemaError.duplicateField owner field.name] else []) = [] ↔ field.name ∉ earlier := by
      simp
    have empty : (if field.type.cardinality = .array 0 then
        [SchemaError.zeroLengthArray (.field owner field.name)] else []) = [] ↔
          field.type.cardinality ≠ .array 0 := by
      simp
    rw [fieldErrors, List.append_eq_nil_iff, List.append_eq_nil_iff, List.append_eq_nil_iff,
      List.append_eq_nil_iff, valid, duplicate, empty, referenceErrors_eq_nil_iff, ih,
      forall_not_mem_append_singleton]
    simp only [List.map_cons, List.forall_mem_cons, List.nodup_cons]
    tauto

theorem fieldErrors_eq_nil_iff_wellFormed {owner : String} {fields : List Field} :
    schema.fieldErrors owner [] fields = [] ↔ FieldsWellFormed fields ∧
      ∀ name, .named name ∈ fields.map (·.type.element) → schema.kind? name = some .value := by
  rw [fieldErrors_eq_nil_iff]
  constructor
  · intro rules
    rcases rules with ⟨valid, distinct, _, nonempty, resolved⟩
    refine ⟨⟨valid, distinct, nonempty⟩, fun name element => ?_⟩
    obtain ⟨field, member, same⟩ := List.mem_map.mp element
    exact resolved field member name same
  · intro rules
    rcases rules with ⟨⟨valid, distinct, nonempty⟩, resolved⟩
    refine ⟨valid, distinct, fun name _ => List.not_mem_nil, nonempty, ?_⟩
    intro field member name same
    exact resolved name (List.mem_map.mpr ⟨field, member, same⟩)

theorem bodyErrors_eq_nil_iff {entry : Entry} :
    schema.bodyErrors entry = [] ↔
      (∀ fields ∈ entry.body.fieldLists, FieldsWellFormed fields) ∧
        ∀ name, .named name ∈ entry.body.elements → schema.kind? name = some .value := by
  rw [bodyErrors, Entry.fieldLists]
  match entry.body with
  | .message fields =>
    simp [Body.fieldLists, Body.elements, fieldErrors_eq_nil_iff_wellFormed]
  | .alias target =>
    simp [Body.fieldLists, Body.elements, referenceErrors_eq_nil_iff, @eq_comm _ target]
  | .service request reply =>
    simp only [Body.fieldLists, Body.elements, List.flatMap_cons, List.flatMap_nil,
      List.append_nil, List.append_eq_nil_iff, fieldErrors_eq_nil_iff_wellFormed, List.map_append,
      List.mem_append, List.forall_mem_cons, or_imp, forall_and]
    simp only [List.not_mem_nil, false_imp_iff, implies_true, and_true]
    tauto

end Fields

section Cycles

variable {schema : Schema}

theorem name?_eq_some_iff {element : TypeRef} {name : String} :
    element.name? = some name ↔ element = .named name := by
  cases element <;> simp [TypeRef.name?]

theorem mem_references_iff {name : String} : {body : Body} → body.isService = false →
    (name ∈ body.references ↔ .named name ∈ body.elements)
  | .message fields, _ => by simp [Body.references, Body.elements, name?_eq_some_iff]
  | .alias target, _ => by
    simp [Body.references, Body.elements, name?_eq_some_iff, @eq_comm _ target]

theorem mem_ofSchema {name : String} {targets : List String} :
    (name, targets) ∈ ReferenceGraph.ofSchema schema ↔
      ∃ entry ∈ schema.entries, entry.name = name ∧ entry.body.isService = false ∧
        entry.body.references = targets := by
  rw [ReferenceGraph.ofSchema, List.mem_filterMap]
  apply exists_congr
  intro entry
  apply and_congr_right
  intro _
  cases entry.body.isService <;> simp

theorem map_fst_ofSchema_sublist :
    ((ReferenceGraph.ofSchema schema).map Prod.fst).Sublist schema.names := by
  rw [ReferenceGraph.ofSchema, names]
  induction schema.entries with
  | nil => exact .slnil
  | cons entry rest ih =>
    rw [List.filterMap_cons, List.flatMap_cons, Entry.names]
    match entry.body with
    | .message fields => exact ih.cons_cons entry.name
    | .alias target => exact ih.cons_cons entry.name
    | .service request reply => exact ih.trans (List.sublist_append_right _ _)

theorem refersTo_of_refers {name target : String}
    (refers : (ReferenceGraph.ofSchema schema).Refers name target) :
    schema.RefersTo name target := by
  rcases refers with ⟨targets, known, member⟩
  obtain ⟨entry, inside, same, value, rfl⟩ := mem_ofSchema.mp (mem_of_find?_reverse known)
  exact ⟨entry, inside, same, value, (mem_references_iff value).mp member⟩

theorem refers_ofSchema (distinct : ((ReferenceGraph.ofSchema schema).map Prod.fst).Nodup) :
    (ReferenceGraph.ofSchema schema).Refers = schema.RefersTo := by
  -- The last entry of a name would hide the others in the graph, if there were others.
  funext name target
  apply propext
  constructor
  · exact refersTo_of_refers
  · intro refers
    rcases refers with ⟨entry, inside, same, value, element⟩
    have node := mem_ofSchema.mpr ⟨entry, inside, same, value, rfl⟩
    refine ⟨entry.body.references, ?_, (mem_references_iff value).mpr element⟩
    rw [ReferenceGraph.targets?, find?_reverse_eq_some distinct node]
    rfl

theorem cycles_eq_errors : schema.cycles =
    ((ReferenceGraph.ofSchema schema).searchAll (schema.entries.map Entry.name)).errors := by
  rw [cycles, ReferenceGraph.searchAll, List.foldl_map]

theorem mem_names_of_known {name : String}
    (known : (ReferenceGraph.ofSchema schema).Known name) :
    name ∈ schema.entries.map Entry.name := by
  rcases known with ⟨targets, known⟩
  obtain ⟨entry, inside, same, _⟩ := mem_ofSchema.mp (mem_of_find?_reverse known)
  exact List.mem_map.mpr ⟨entry, inside, same⟩

theorem cycles_eq_nil_iff (distinct : schema.names.Nodup) :
    schema.cycles = [] ↔ ∀ name, ¬ Relation.TransGen schema.RefersTo name name := by
  rw [cycles_eq_errors,
    ReferenceGraph.errors_searchAll_eq_nil_iff fun _ known => mem_names_of_known known,
    ReferenceGraph.Acyclic, refers_ofSchema (distinct.sublist map_fst_ofSchema_sublist)]

end Cycles

section Compile

variable {schema : Schema}

theorem diagnostics_eq_nil_iff : schema.diagnostics = [] ↔ schema.WellFormed := by
  rw [diagnostics, List.append_eq_nil_iff, List.append_eq_nil_iff, entryErrors_eq_nil_iff,
    nameErrors_eq_nil_iff, List.flatMap_eq_nil_iff]
  constructor
  · intro clean
    rcases clean with ⟨⟨⟨valid, visible, unreserved, distinct, _⟩, bodies⟩, cycles⟩
    -- The names are distinct by an earlier rule, which the rules for references can rely on.
    have body (entry : Entry) (member : entry ∈ schema.entries) :=
      bodyErrors_eq_nil_iff.mp (bodies entry member)
    exact {
      name_valid := valid
      identity_visible := visible
      names_unreserved := unreserved
      names_distinct := distinct
      fields_wellFormed := fun entry member => (body entry member).1
      references_declared := fun entry member name element =>
        (kind?_eq_value_iff distinct).mp ((body entry member).2 name element)
      acyclic := (cycles_eq_nil_iff distinct).mp cycles }
  · intro wellFormed
    have distinct := wellFormed.names_distinct
    refine ⟨⟨⟨wellFormed.name_valid, wellFormed.identity_visible, wellFormed.names_unreserved,
      distinct, fun _ _ => List.not_mem_nil⟩, fun entry member => ?_⟩,
      (cycles_eq_nil_iff distinct).mpr wellFormed.acyclic⟩
    rw [bodyErrors_eq_nil_iff]
    exact ⟨wellFormed.fields_wellFormed entry member, fun name element =>
      (kind?_eq_value_iff distinct).mpr (wellFormed.references_declared entry member name element)⟩

theorem compile_eq_ok_iff : (∃ compiled, schema.compile = .ok compiled) ↔ schema.WellFormed := by
  rw [← diagnostics_eq_nil_iff, compile]
  cases schema.diagnostics <;> simp

theorem compile_eq_ok {compiled : CompiledSchema} (compiles : schema.compile = .ok compiled) :
    schema.WellFormed ∧ compiled = ⟨schema, .ofSchema schema⟩ := by
  refine ⟨compile_eq_ok_iff.mp ⟨compiled, compiles⟩, ?_⟩
  rw [compile] at compiles
  split at compiles
  · cases compiles
  · exact (Except.ok.inj compiles).symm

/-- A schema compiles exactly if it is well formed, and so does every reordering of it. -/
theorem compile_accepts_wellFormed (schema : Schema) :
    ((∃ compiled, schema.compile = .ok compiled) ↔ schema.WellFormed) ∧
    ∀ other : Schema, other.entries.Perm schema.entries →
      ((∃ compiled, other.compile = .ok compiled) ↔
        ∃ compiled, schema.compile = .ok compiled) := by
  refine ⟨compile_eq_ok_iff, fun other perm => ?_⟩
  rw [compile_eq_ok_iff, compile_eq_ok_iff]
  constructor
  · intro wellFormed
    exact wellFormed.of_perm perm.symm
  · intro wellFormed
    exact wellFormed.of_perm perm

def sampleSchema : Schema :=
  ⟨[⟨"Point", ⟨"demo/Point", "1"⟩, [], .message [⟨"x", ⟨.base (.scalar .int32), .one⟩, []⟩]⟩,
    ⟨"Line", ⟨"demo/Line", "2"⟩, [], .message [⟨"points", ⟨.named "Point", .sequence⟩, []⟩]⟩,
    ⟨"Measure", ⟨"demo/Measure", "3"⟩, [],
      .service [⟨"line", ⟨.named "Line", .one⟩, []⟩]
        [⟨"length", ⟨.base (.scalar .float64), .one⟩, []⟩]⟩]⟩

theorem compile_accepts_sampleSchema :
    (∃ compiled, sampleSchema.compile = .ok compiled) ∧ sampleSchema.WellFormed ∧
    sampleSchema.entries.reverse.Perm sampleSchema.entries ∧
    ∃ compiled, (Schema.mk sampleSchema.entries.reverse).compile = .ok compiled := by
  have clean : sampleSchema.diagnostics = [] := by
    decide +kernel
  have compiled : ∃ compiled, sampleSchema.compile = .ok compiled := by
    rw [compile, clean]
    exact ⟨_, rfl⟩
  have perm := List.reverse_perm sampleSchema.entries
  obtain ⟨wellFormed, reordered⟩ := compile_accepts_wellFormed sampleSchema
  exact ⟨compiled, wellFormed.mp compiled, perm, (reordered ⟨_⟩ perm).mpr compiled⟩

end Compile

end Schema

end WireSchema
