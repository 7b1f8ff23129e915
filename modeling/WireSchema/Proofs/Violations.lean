import WireSchema.Proofs.Recursion

/-! The diagnostics of a schema against the rules that it breaks. -/

namespace WireSchema

/-- A place in a table. Entries, generated names and lists of fields are counted through the whole
table, fields within their list. -/
inductive Place where
  | entry (entry : Nat)
  | name (name : Nat)
  | field (list field : Nat)
  deriving DecidableEq, Repr

inductive Rule where
  | identifier
  | identity
  | unreserved
  | distinct
  | nonempty
  | reference
  deriving DecidableEq, Repr

structure Violation where
  place : Place
  rule : Rule
  deriving DecidableEq, Repr

namespace Schema

def fieldLists (schema : Schema) : List (String × List Field) :=
  schema.entries.flatMap Entry.fieldLists

def EndsInService (schema : Schema) (name : String) : Prop :=
  ∃ before entry after, schema.entries = before ++ entry :: after ∧ name ∈ entry.names ∧
    entry.body.isService = true ∧ ∀ later ∈ after, name ∉ later.names

/-- A reference that leads to no value, and what is said of it. -/
inductive Misrefers (schema : Schema) (site : Site) (name : String) : SchemaError → Prop
  | unknown (undeclared : name ∉ schema.names) : Misrefers schema site name (.unknownType site name)
  | service (last : schema.EndsInService name) :
    Misrefers schema site name (.serviceAsField site name)

/-- Which rules a schema breaks at which places, and what is said of it. -/
inductive Violates (schema : Schema) : Violation → SchemaError → Prop
  | entryName {i : Nat} {entry : Entry} (stands : schema.entries[i]? = some entry)
      (invalid : ¬ isIdentifier entry.name) :
    Violates schema ⟨.entry i, .identifier⟩ (.invalidIdentifier (.type entry.name))
  | identity {i : Nat} {entry : Entry} (stands : schema.entries[i]? = some entry)
      (blank : ∀ c ∈ entry.identity.name.toList, Text.isBlank c = true) :
    Violates schema ⟨.entry i, .identity⟩ (.emptyIdentity entry.name)
  | target {i : Nat} {entry : Entry} {name : String} {error : SchemaError}
      (stands : schema.entries[i]? = some entry) (aliased : entry.body = .alias (.named name))
      (astray : schema.Misrefers (.type entry.name) name error) :
    Violates schema ⟨.entry i, .reference⟩ error
  | reserved {i : Nat} {name : String} {base : BaseType} (stands : schema.names[i]? = some name)
      (spelling : name ∈ base.spellings) :
    Violates schema ⟨.name i, .unreserved⟩ (.reservedTypeName name)
  | repeatedName {i : Nat} {name : String} (stands : schema.names[i]? = some name)
      (taken : name ∈ schema.names.take i) :
    Violates schema ⟨.name i, .distinct⟩ (.duplicateType name)
  | fieldName {list i : Nat} {owner : String} {fields : List Field} {field : Field}
      (listed : schema.fieldLists[list]? = some (owner, fields)) (stands : fields[i]? = some field)
      (invalid : ¬ isIdentifier field.name) :
    Violates schema ⟨.field list i, .identifier⟩ (.invalidIdentifier (.field owner field.name))
  | repeatedField {list i : Nat} {owner : String} {fields : List Field} {field : Field}
      (listed : schema.fieldLists[list]? = some (owner, fields)) (stands : fields[i]? = some field)
      (taken : field.name ∈ (fields.take i).map Field.name) :
    Violates schema ⟨.field list i, .distinct⟩ (.duplicateField owner field.name)
  | emptyArray {list i : Nat} {owner : String} {fields : List Field} {field : Field}
      (listed : schema.fieldLists[list]? = some (owner, fields)) (stands : fields[i]? = some field)
      (empty : field.type.cardinality = .array 0) :
    Violates schema ⟨.field list i, .nonempty⟩ (.zeroLengthArray (.field owner field.name))
  | element {list i : Nat} {owner : String} {fields : List Field} {field : Field} {name : String}
      {error : SchemaError} (listed : schema.fieldLists[list]? = some (owner, fields))
      (stands : fields[i]? = some field) (named : field.type.element = .named name)
      (astray : schema.Misrefers (.field owner field.name) name error) :
    Violates schema ⟨.field list i, .reference⟩ error

section References

variable {name : String} {front : List Entry} {last : Entry}

theorem mem_names_of_mem_generated {entry : Entry} {kind : NameKind}
    (generated : (name, kind) ∈ entry.generated) :
    name ∈ entry.names ∧ (kind ≠ .value ↔ entry.body.isService = true) := by
  have listed : name ∈ entry.generatedNames := List.mem_map.mpr ⟨_, generated, rfl⟩
  rw [generatedNames_eq] at listed
  refine ⟨listed, ?_⟩
  rw [Entry.generated] at generated
  cases shape : entry.body with
  | message fields =>
    rw [shape, List.mem_singleton] at generated
    simp [Body.isService, (Prod.mk.inj generated).2]
  | «alias» target =>
    rw [shape, List.mem_singleton] at generated
    simp [Body.isService, (Prod.mk.inj generated).2]
  | service request reply =>
    rw [shape] at generated
    simp only [List.mem_cons, Prod.mk.injEq, List.not_mem_nil, or_false] at generated
    rcases generated with ⟨-, rfl⟩ | ⟨-, rfl⟩ | ⟨-, rfl⟩ <;> simp [Body.isService]

/-- What the last entry makes of a name, if it generates it. -/
theorem kind?_concat_of_mem (front : List Entry) (generated : name ∈ last.names) :
    ∃ kind, (Schema.mk (front ++ [last])).kind? name = some kind ∧
      (kind ≠ .value ↔ last.body.isService = true) := by
  rw [← generatedNames_eq, Entry.generatedNames, List.mem_map] at generated
  obtain ⟨pair, inside, same⟩ := generated
  have found : (last.generated.reverse.find? (·.1 == name)).isSome := by
    rw [List.find?_isSome]
    exact ⟨pair, List.mem_reverse.mpr inside, by simpa using same⟩
  obtain ⟨pair, found⟩ := Option.isSome_iff_exists.mp found
  refine ⟨pair.2, ?_, ?_⟩
  · rw [kind?, Schema.generated, List.flatMap_append, List.flatMap_singleton, List.reverse_append,
      List.find?_append, found]
    rfl
  · exact (mem_names_of_mem_generated (List.mem_reverse.mp (List.mem_of_find?_eq_some found))).2

theorem kind?_concat_of_not_mem (absent : name ∉ last.names) :
    (Schema.mk (front ++ [last])).kind? name = (Schema.mk front).kind? name := by
  have missing : last.generated.reverse.find? (·.1 == name) = none := by
    rw [List.find?_eq_none]
    intro pair inside same
    have generated := (mem_names_of_mem_generated (List.mem_reverse.mp inside)).1
    exact absent (beq_iff_eq.mp same ▸ generated)
  rw [kind?, kind?, Schema.generated, Schema.generated, List.flatMap_append, List.flatMap_singleton,
    List.reverse_append, List.find?_append, missing, Option.none_or]

theorem endsInService_concat_of_mem (generated : name ∈ last.names) :
    (Schema.mk (front ++ [last])).EndsInService name ↔ last.body.isService = true := by
  constructor
  · rintro ⟨before, entry, after, split, listed, service, free⟩
    rcases List.eq_nil_or_concat' after with rfl | ⟨after, final, rfl⟩
    · obtain ⟨-, same⟩ := List.append_inj' split rfl
      rwa [(List.cons.inj same).1]
    · rw [← List.cons_append, ← List.append_assoc] at split
      obtain ⟨-, same⟩ := List.append_inj' split rfl
      rw [← (List.cons.inj same).1] at free
      exact absurd generated (free last (by simp))
  · intro service
    exact ⟨front, last, [], rfl, generated, service, List.forall_mem_nil _⟩

theorem endsInService_concat_of_not_mem (absent : name ∉ last.names) :
    (Schema.mk (front ++ [last])).EndsInService name ↔ (Schema.mk front).EndsInService name := by
  constructor
  · rintro ⟨before, entry, after, split, listed, service, free⟩
    rcases List.eq_nil_or_concat' after with rfl | ⟨after, final, rfl⟩
    · obtain ⟨-, same⟩ := List.append_inj' split rfl
      rw [← (List.cons.inj same).1] at listed
      exact absurd listed absent
    · rw [← List.cons_append, ← List.append_assoc] at split
      obtain ⟨same, -⟩ := List.append_inj' split rfl
      exact ⟨before, entry, after, same, listed, service,
        fun later member => free later (List.mem_append_left _ member)⟩
  · rintro ⟨before, entry, after, rfl, listed, service, free⟩
    refine ⟨before, entry, after ++ [last], by simp, listed, service, fun later member => ?_⟩
    rcases List.mem_append.mp member with earlier | own
    · exact free later earlier
    · exact List.mem_singleton.mp own ▸ absent

theorem kind?_eq_none_iff {schema : Schema} : schema.kind? name = none ↔ name ∉ schema.names := by
  rw [kind?, Option.map_eq_none_iff, List.find?_eq_none, ← map_fst_generated, List.mem_map]
  simp only [List.mem_reverse, beq_iff_eq, not_exists, not_and]

theorem endsInService_iff {schema : Schema} :
    schema.EndsInService name ↔ ∃ kind, schema.kind? name = some kind ∧ kind ≠ .value := by
  obtain ⟨entries⟩ := schema
  induction entries using List.reverseRecOn with
  | nil =>
    refine iff_of_false ?_ (by simp [kind?, Schema.generated])
    rintro ⟨before, entry, after, split, -⟩
    simp at split
  | append_singleton front last ih =>
    by_cases listed : name ∈ last.names
    · obtain ⟨kind, found, stands⟩ := kind?_concat_of_mem front listed
      rw [endsInService_concat_of_mem listed, found, ← stands]
      simp
    · rw [endsInService_concat_of_not_mem listed, kind?_concat_of_not_mem listed, ih]

theorem mem_referenceErrors_iff {schema : Schema} {site : Site} {error : SchemaError} :
    error ∈ schema.referenceErrors site (.named name) ↔ schema.Misrefers site name error := by
  rw [referenceErrors]
  cases found : schema.kind? name with
  | none =>
    have undeclared := kind?_eq_none_iff.mp found
    have other : ¬ schema.EndsInService name := by
      simp [endsInService_iff, found]
    constructor
    · intro member
      rw [List.mem_singleton.mp member]
      exact .unknown undeclared
    · rintro (_ | last)
      · exact List.mem_singleton_self _
      · exact absurd last other
  | some kind =>
    have declared : name ∈ schema.names := by
      by_contra absent
      rw [kind?_eq_none_iff.mpr absent] at found
      cases found
    have last : schema.EndsInService name ↔ kind ≠ .value := by
      simp [endsInService_iff, found]
    constructor
    · intro member
      cases kind with
      | value => cases member
      | service =>
        rw [List.mem_singleton.mp member]
        exact .service (last.mpr (by decide))
      | servicePart =>
        rw [List.mem_singleton.mp member]
        exact .service (last.mpr (by decide))
    · rintro (undeclared | service)
      · exact absurd declared undeclared
      · cases kind with
        | value => exact absurd rfl (last.mp service)
        | service => exact List.mem_singleton_self _
        | servicePart => exact List.mem_singleton_self _

end References

section Lists

variable {schema : Schema} {within inside outside : Violation → Prop}
  {errors more : List SchemaError}

/-- The errors tell of the violations that are meant, of each once and of no other. -/
def Lists (schema : Schema) (errors : List SchemaError) (within : Violation → Prop) : Prop :=
  ∃ found : List (Violation × SchemaError), (found.map Prod.fst).Nodup ∧
    (∀ violation error, (violation, error) ∈ found ↔
      within violation ∧ schema.Violates violation error) ∧
    found.map Prod.snd = errors

theorem Lists.congr (lists : schema.Lists errors within)
    (same : ∀ violation error, schema.Violates violation error →
      (within violation ↔ inside violation)) : schema.Lists errors inside := by
  obtain ⟨found, distinct, exact, told⟩ := lists
  refine ⟨found, distinct, fun violation error => ?_, told⟩
  rw [exact]
  exact and_congr_left fun violates => same violation error violates

theorem lists_nil
    (outside : ∀ violation error, schema.Violates violation error → ¬ within violation) :
    schema.Lists [] within := by
  refine ⟨[], .nil, fun violation error => ?_, rfl⟩
  refine iff_of_false List.not_mem_nil fun listed => ?_
  exact outside violation error listed.2 listed.1

/-- One rule at one place. -/
theorem lists_one {violation : Violation} (short : errors.length ≤ 1)
    (exact : ∀ error, error ∈ errors ↔ schema.Violates violation error) :
    schema.Lists errors (· = violation) := by
  refine ⟨errors.map (violation, ·), ?_, fun other error => ?_, by simp⟩
  · match errors, short with
    | [], _ => exact .nil
    | [error], _ => exact List.nodup_singleton _
  · rw [List.mem_map]
    constructor
    · rintro ⟨_, member, same⟩
      cases same
      exact ⟨rfl, (exact error).mp member⟩
    · rintro ⟨rfl, violates⟩
      exact ⟨error, (exact error).mpr violates, rfl⟩

theorem lists_if {violation : Violation} {error : SchemaError} {broken : Prop} [Decidable broken]
    (exact : ∀ told, schema.Violates violation told ↔ broken ∧ told = error) :
    schema.Lists (if broken then [error] else []) (· = violation) := by
  apply lists_one
  · split <;> simp
  · intro told
    rw [exact]
    split <;> simp_all

theorem lists_unless {violation : Violation} {error : SchemaError} {kept : Prop} [Decidable kept]
    (exact : ∀ told, schema.Violates violation told ↔ ¬ kept ∧ told = error) :
    schema.Lists (if kept then [] else [error]) (· = violation) := by
  rw [← ite_not]
  exact lists_if exact

theorem Lists.append (first : schema.Lists errors inside) (second : schema.Lists more outside)
    (apart : ∀ violation, inside violation → ¬ outside violation) :
    schema.Lists (errors ++ more) fun violation => inside violation ∨ outside violation := by
  obtain ⟨found, distinct, exact, rfl⟩ := first
  obtain ⟨others, distinct', exact', rfl⟩ := second
  refine ⟨found ++ others, ?_, fun violation error => ?_, List.map_append⟩
  · rw [List.map_append, List.nodup_append]
    refine ⟨distinct, distinct', fun violation member other present same => ?_⟩
    obtain ⟨⟨_, error⟩, listed, rfl⟩ := List.mem_map.mp member
    obtain ⟨⟨_, told⟩, listed', rfl⟩ := List.mem_map.mp present
    dsimp only at same
    subst same
    exact apart _ ((exact _ _).mp listed).1 ((exact' _ _).mp listed').1
  · rw [List.mem_append, exact, exact', or_and_right]

end Lists

section Names

variable {schema : Schema} {i : Nat} {name : String} {error : SchemaError}

theorem violates_unreserved_iff (stands : schema.names[i]? = some name) :
    schema.Violates ⟨.name i, .unreserved⟩ error ↔
      (BaseType.ofSpelling? name).isSome ∧ error = .reservedTypeName name := by
  rw [ofSpelling?_isSome_iff]
  constructor
  · intro violates
    cases violates with
    | reserved stands' spelling =>
      cases stands.symm.trans stands'
      exact ⟨⟨_, spelling⟩, rfl⟩
  · rintro ⟨⟨base, spelling⟩, rfl⟩
    exact .reserved stands spelling

theorem violates_distinct_iff {earlier later : List String}
    (all : schema.names = earlier ++ name :: later) :
    schema.Violates ⟨.name earlier.length, .distinct⟩ error ↔
      earlier.contains name ∧ error = .duplicateType name := by
  have stands : schema.names[earlier.length]? = some name := by simp [all]
  have before : schema.names.take earlier.length = earlier := by simp [all]
  rw [List.contains_iff_mem]
  constructor
  · intro violates
    cases violates with
    | repeatedName stands' taken =>
      cases stands.symm.trans stands'
      exact ⟨before ▸ taken, rfl⟩
  · rintro ⟨taken, rfl⟩
    exact .repeatedName stands (before.symm ▸ taken)

theorem rule_of_name {violation : Violation} (violates : schema.Violates violation error)
    (place : violation.place = .name i) :
    violation = ⟨.name i, .unreserved⟩ ∨ violation = ⟨.name i, .distinct⟩ := by
  cases violates <;> cases place <;> simp

theorem lists_nameErrors {earlier names later : List String}
    (all : schema.names = earlier ++ (names ++ later)) :
    schema.Lists (nameErrors earlier names) fun violation =>
      ∃ i, violation.place = .name i ∧ earlier.length ≤ i ∧
        i < earlier.length + names.length := by
  induction names generalizing earlier with
  | nil =>
    apply lists_nil
    rintro violation error - ⟨i, -, above, below⟩
    rw [List.length_nil] at below
    omega
  | cons name rest ih =>
    have stands : schema.names[earlier.length]? = some name := by simp [all]
    have reserved := lists_if fun told => violates_unreserved_iff stands
    have repeated := lists_if fun told => violates_distinct_iff all
    have later := ih (all.trans (List.append_cons _ _ _))
    rw [List.length_append, List.length_singleton] at later
    rw [nameErrors, List.length_cons]
    refine ((reserved.append repeated ?_).append later ?_).congr fun violation error violates => ?_
    · rintro violation rfl
      simp
    · rintro violation (rfl | rfl) ⟨i, place, above, -⟩ <;> cases place <;> omega
    · constructor
      · rintro ((rfl | rfl) | ⟨i, place, above, below⟩)
        · exact ⟨_, rfl, by omega, by omega⟩
        · exact ⟨_, rfl, by omega, by omega⟩
        · exact ⟨i, place, by omega, by omega⟩
      · rintro ⟨i, place, above, below⟩
        rcases Nat.eq_or_lt_of_le above with rfl | above
        · exact .inl (rule_of_name violates place)
        · exact .inr ⟨i, place, by omega, by omega⟩

end Names

section Fields

variable {schema : Schema} {list i : Nat} {owner : String} {before fields : List Field}
  {field : Field} {error : SchemaError}

section Place

variable (listed : schema.fieldLists[list]? = some (owner, fields))
  (stands : fields[i]? = some field)
include listed stands

theorem violates_fieldName_iff : schema.Violates ⟨.field list i, .identifier⟩ error ↔
    ¬ isIdentifier field.name ∧ error = .invalidIdentifier (.field owner field.name) := by
  constructor
  · intro violates
    cases violates with
    | fieldName listed' stands' invalid =>
      cases listed.symm.trans listed'
      cases stands.symm.trans stands'
      exact ⟨invalid, rfl⟩
  · rintro ⟨invalid, rfl⟩
    exact .fieldName listed stands invalid

theorem violates_repeatedField_iff : schema.Violates ⟨.field list i, .distinct⟩ error ↔
    ((fields.take i).map Field.name).contains field.name ∧
      error = .duplicateField owner field.name := by
  rw [List.contains_iff_mem]
  constructor
  · intro violates
    cases violates with
    | repeatedField listed' stands' taken =>
      cases listed.symm.trans listed'
      cases stands.symm.trans stands'
      exact ⟨taken, rfl⟩
  · rintro ⟨taken, rfl⟩
    exact .repeatedField listed stands taken

theorem violates_emptyArray_iff : schema.Violates ⟨.field list i, .nonempty⟩ error ↔
    field.type.cardinality = .array 0 ∧ error = .zeroLengthArray (.field owner field.name) := by
  constructor
  · intro violates
    cases violates with
    | emptyArray listed' stands' empty =>
      cases listed.symm.trans listed'
      cases stands.symm.trans stands'
      exact ⟨empty, rfl⟩
  · rintro ⟨empty, rfl⟩
    exact .emptyArray listed stands empty

theorem violates_element_iff : schema.Violates ⟨.field list i, .reference⟩ error ↔
    error ∈ schema.referenceErrors (.field owner field.name) field.type.element := by
  constructor
  · intro violates
    cases violates with
    | element listed' stands' named astray =>
      cases listed.symm.trans listed'
      cases stands.symm.trans stands'
      rw [named]
      exact mem_referenceErrors_iff.mpr astray
  · intro member
    cases named : field.type.element with
    | base type =>
      rw [named] at member
      cases member
    | named name =>
      rw [named] at member
      exact .element listed stands named (mem_referenceErrors_iff.mp member)

end Place

theorem length_referenceErrors_le (site : Site) (element : TypeRef) :
    (schema.referenceErrors site element).length ≤ 1 := by
  cases element with
  | base type => exact Nat.zero_le 1
  | named name =>
    rw [referenceErrors]
    split <;> simp

theorem rule_of_field {violation : Violation} (violates : schema.Violates violation error)
    (place : violation.place = .field list i) :
    violation = ⟨.field list i, .identifier⟩ ∨ violation = ⟨.field list i, .distinct⟩ ∨
      violation = ⟨.field list i, .nonempty⟩ ∨ violation = ⟨.field list i, .reference⟩ := by
  cases violates <;> cases place <;> simp

theorem stands_of_field {violation : Violation} (violates : schema.Violates violation error)
    (place : violation.place = .field list i) :
    ∃ owner fields field, schema.fieldLists[list]? = some (owner, fields) ∧
      fields[i]? = some field := by
  cases violates <;> cases place <;> exact ⟨_, _, _, ‹_›, ‹_›⟩

theorem lists_fieldErrors
    (listed : schema.fieldLists[list]? = some (owner, before ++ fields)) :
    schema.Lists (schema.fieldErrors owner (before.map Field.name) fields) fun violation =>
      ∃ i, violation.place = .field list i ∧ before.length ≤ i := by
  induction fields generalizing before with
  | nil =>
    apply lists_nil
    rintro violation error violates ⟨i, place, above⟩
    obtain ⟨_, _, field, listed', stands⟩ := stands_of_field violates place
    cases listed.symm.trans listed'
    rw [List.append_nil, List.getElem?_eq_none above] at stands
    cases stands
  | cons field rest ih =>
    have stands : (before ++ field :: rest)[before.length]? = some field := by simp
    have earlier : (before ++ field :: rest).take before.length = before := by simp
    have invalid := lists_unless fun told => violates_fieldName_iff listed stands
    have repeated := lists_if fun told => violates_repeatedField_iff listed stands
    have empty := lists_if fun told => violates_emptyArray_iff listed stands
    have astray := lists_one (length_referenceErrors_le _ _) fun told =>
      (violates_element_iff listed stands).symm
    have later := ih (List.append_cons before field rest ▸ listed)
    rw [earlier] at repeated
    rw [List.map_append, List.map_singleton, List.length_append, List.length_singleton] at later
    rw [fieldErrors]
    refine ((((invalid.append repeated ?_).append empty ?_).append astray ?_).append
      later ?_).congr fun violation error violates => ?_
    · rintro violation rfl
      simp
    · rintro violation (rfl | rfl) <;> simp
    · rintro violation ((rfl | rfl) | rfl) <;> simp
    · grind
    · constructor
      · rintro ((((rfl | rfl) | rfl) | rfl) | ⟨i, place, above⟩)
        · exact ⟨_, rfl, by omega⟩
        · exact ⟨_, rfl, by omega⟩
        · exact ⟨_, rfl, by omega⟩
        · exact ⟨_, rfl, by omega⟩
        · exact ⟨i, place, by omega⟩
      · rintro ⟨i, place, above⟩
        rcases Nat.eq_or_lt_of_le above with rfl | above
        · left
          simpa [or_assoc] using rule_of_field violates place
        · exact .inr ⟨i, place, by omega⟩

theorem lists_fieldLists {front lists back : List (String × List Field)}
    (all : schema.fieldLists = front ++ (lists ++ back)) :
    schema.Lists (lists.flatMap fun (owner, fields) => schema.fieldErrors owner [] fields)
      fun violation => ∃ list i, violation.place = .field list i ∧ front.length ≤ list ∧
        list < front.length + lists.length := by
  induction lists generalizing front with
  | nil =>
    apply lists_nil
    rintro violation error - ⟨list, i, -, above, below⟩
    rw [List.length_nil] at below
    omega
  | cons first rest ih =>
    obtain ⟨owner, fields⟩ := first
    have listed : schema.fieldLists[front.length]? = some (owner, [] ++ fields) := by simp [all]
    have own := lists_fieldErrors listed
    have later := ih (all.trans (List.append_cons _ _ _))
    rw [List.length_append, List.length_singleton] at later
    rw [List.flatMap_cons, List.length_cons]
    refine (own.append later ?_).congr fun violation error violates => ?_
    · rintro violation ⟨i, place, -⟩ ⟨list, i', place', above, -⟩
      cases place.symm.trans place'
      omega
    · constructor
      · rintro (⟨i, place, -⟩ | ⟨list, i, place, above, below⟩)
        · exact ⟨_, i, place, by omega, by omega⟩
        · exact ⟨list, i, place, by omega, by omega⟩
      · rintro ⟨list, i, place, above, below⟩
        rcases Nat.eq_or_lt_of_le above with rfl | above
        · exact .inl ⟨i, place, Nat.zero_le i⟩
        · exact .inr ⟨list, i, place, by omega, by omega⟩

end Fields

section Entries

variable {schema : Schema} {i : Nat} {entry : Entry} {before entries : List Entry}
  {error : SchemaError}

section Place

variable (stands : schema.entries[i]? = some entry)
include stands

theorem violates_entryName_iff : schema.Violates ⟨.entry i, .identifier⟩ error ↔
    ¬ isIdentifier entry.name ∧ error = .invalidIdentifier (.type entry.name) := by
  constructor
  · intro violates
    cases violates with
    | entryName stands' invalid =>
      cases stands.symm.trans stands'
      exact ⟨invalid, rfl⟩
  · rintro ⟨invalid, rfl⟩
    exact .entryName stands invalid

theorem violates_identity_iff : schema.Violates ⟨.entry i, .identity⟩ error ↔
    entry.identity.name.toList.all Text.isBlank ∧ error = .emptyIdentity entry.name := by
  rw [List.all_eq_true]
  constructor
  · intro violates
    cases violates with
    | identity stands' blank =>
      cases stands.symm.trans stands'
      exact ⟨blank, rfl⟩
  · rintro ⟨blank, rfl⟩
    exact .identity stands blank

def targetErrors (schema : Schema) (entry : Entry) : List SchemaError :=
  match entry.body with
  | .alias target => schema.referenceErrors (.type entry.name) target
  | .message _ | .service .. => []

theorem violates_target_iff : schema.Violates ⟨.entry i, .reference⟩ error ↔
    error ∈ schema.targetErrors entry := by
  constructor
  · intro violates
    cases violates with
    | target stands' aliased astray =>
      cases stands.symm.trans stands'
      rw [targetErrors, aliased]
      exact mem_referenceErrors_iff.mpr astray
  · intro member
    rw [targetErrors] at member
    split at member
    · rename_i target aliased
      cases target with
      | base type => cases member
      | named name => exact .target stands aliased (mem_referenceErrors_iff.mp member)
    · cases member
    · cases member

end Place

theorem length_targetErrors_le (entry : Entry) : (schema.targetErrors entry).length ≤ 1 := by
  rw [targetErrors]
  split
  · exact length_referenceErrors_le _ _
  · exact Nat.zero_le 1
  · exact Nat.zero_le 1

theorem bodyErrors_eq (entry : Entry) : schema.bodyErrors entry = schema.targetErrors entry ++
    entry.fieldLists.flatMap fun (owner, fields) => schema.fieldErrors owner [] fields := by
  rw [bodyErrors, targetErrors, Entry.fieldLists]
  cases entry.body <;> simp

theorem rule_of_entry {violation : Violation} (violates : schema.Violates violation error)
    (place : violation.place = .entry i) :
    violation = ⟨.entry i, .identifier⟩ ∨ violation = ⟨.entry i, .identity⟩ ∨
      violation = ⟨.entry i, .reference⟩ := by
  cases violates <;> cases place <;> simp

theorem lt_of_entry {violation : Violation} (violates : schema.Violates violation error)
    (place : violation.place = .entry i) : i < schema.entries.length := by
  cases violates <;> cases place <;> exact (List.getElem?_eq_some_iff.mp ‹_›).1

theorem lt_of_name {violation : Violation} (violates : schema.Violates violation error)
    (place : violation.place = .name i) : i < schema.names.length := by
  cases violates <;> cases place <;> exact (List.getElem?_eq_some_iff.mp ‹_›).1

theorem lt_of_field {violation : Violation} {list : Nat}
    (violates : schema.Violates violation error) (place : violation.place = .field list i) :
    list < schema.fieldLists.length := by
  obtain ⟨_, _, _, listed, -⟩ := stands_of_field violates place
  exact (List.getElem?_eq_some_iff.mp listed).1

theorem lists_entryErrors (all : schema.entries = before ++ entries) :
    schema.Lists (entryErrors (before.flatMap Entry.names) entries) fun violation =>
      (∃ i, before.length ≤ i ∧ (violation = ⟨.entry i, .identifier⟩ ∨
        violation = ⟨.entry i, .identity⟩)) ∨
      ∃ i, violation.place = .name i ∧ (before.flatMap Entry.names).length ≤ i := by
  induction entries generalizing before with
  | nil =>
    apply lists_nil
    rintro violation error violates (⟨i, above, rfl | rfl⟩ | ⟨i, place, above⟩)
    · have below := lt_of_entry violates rfl
      rw [all, List.append_nil] at below
      omega
    · have below := lt_of_entry violates rfl
      rw [all, List.append_nil] at below
      omega
    · have below := lt_of_name violates place
      rw [names, all, List.append_nil] at below
      omega
  | cons entry rest ih =>
    have stands : schema.entries[before.length]? = some entry := by simp [all]
    have named : schema.names =
        before.flatMap Entry.names ++ (entry.names ++ rest.flatMap Entry.names) := by
      simp [names, all]
    have invalid := lists_unless fun told => violates_entryName_iff stands
    have blank := lists_if fun told => violates_identity_iff stands
    have later := ih (all.trans (List.append_cons _ _ _))
    rw [List.flatMap_append, List.flatMap_singleton, List.length_append, List.length_append,
      List.length_singleton] at later
    rw [entryErrors, generatedNames_eq]
    refine (((invalid.append blank ?_).append (lists_nameErrors named) ?_).append
      later ?_).congr fun violation error violates => ?_
    · rintro violation rfl
      simp
    · rintro violation (rfl | rfl) ⟨i, place, -⟩ <;> cases place
    · grind
    · constructor
      · rintro (((rfl | rfl) | ⟨i, place, above, -⟩) | (⟨i, above, same⟩ | ⟨i, place, above⟩))
        · exact .inl ⟨_, by omega, .inl rfl⟩
        · exact .inl ⟨_, by omega, .inr rfl⟩
        · exact .inr ⟨i, place, above⟩
        · exact .inl ⟨i, by omega, same⟩
        · exact .inr ⟨i, place, by omega⟩
      · rintro (⟨i, above, same⟩ | ⟨i, place, above⟩)
        · rcases Nat.eq_or_lt_of_le above with rfl | above
          · exact .inl (.inl same)
          · exact .inr (.inl ⟨i, by omega, same⟩)
        · by_cases own : i < (before.flatMap Entry.names).length + entry.names.length
          · exact .inl (.inr ⟨i, place, above, own⟩)
          · exact .inr (.inr ⟨i, place, by omega⟩)

theorem lists_bodyErrors (all : schema.entries = before ++ entries) :
    schema.Lists (entries.flatMap schema.bodyErrors) fun violation =>
      (∃ i, before.length ≤ i ∧ violation = ⟨.entry i, .reference⟩) ∨
      ∃ list i, violation.place = .field list i ∧
        (before.flatMap Entry.fieldLists).length ≤ list := by
  induction entries generalizing before with
  | nil =>
    apply lists_nil
    rintro violation error violates (⟨i, above, rfl⟩ | ⟨list, i, place, above⟩)
    · have below := lt_of_entry violates rfl
      rw [all, List.append_nil] at below
      omega
    · have below := lt_of_field violates place
      rw [fieldLists, all, List.append_nil] at below
      omega
  | cons entry rest ih =>
    have stands : schema.entries[before.length]? = some entry := by simp [all]
    have listed : schema.fieldLists = before.flatMap Entry.fieldLists ++
        (entry.fieldLists ++ rest.flatMap Entry.fieldLists) := by
      simp [fieldLists, all]
    have target := lists_one (length_targetErrors_le _) fun told =>
      (violates_target_iff stands).symm
    have later := ih (all.trans (List.append_cons _ _ _))
    rw [List.flatMap_append, List.flatMap_singleton, List.length_append, List.length_append,
      List.length_singleton] at later
    rw [List.flatMap_cons, bodyErrors_eq]
    refine ((target.append (lists_fieldLists listed) ?_).append
      later ?_).congr fun violation error violates => ?_
    · rintro violation rfl ⟨list, i, place, -⟩
      cases place
    · grind
    · constructor
      · rintro ((rfl | ⟨list, i, place, above, -⟩) | (⟨i, above, same⟩ | ⟨list, i, place, above⟩))
        · exact .inl ⟨_, by omega, rfl⟩
        · exact .inr ⟨list, i, place, above⟩
        · exact .inl ⟨i, by omega, same⟩
        · exact .inr ⟨list, i, place, by omega⟩
      · rintro (⟨i, above, same⟩ | ⟨list, i, place, above⟩)
        · rcases Nat.eq_or_lt_of_le above with rfl | above
          · exact .inl (.inl same)
          · exact .inr (.inl ⟨i, by omega, same⟩)
        · by_cases own : list < (before.flatMap Entry.fieldLists).length + entry.fieldLists.length
          · exact .inl (.inr ⟨list, i, place, above, own⟩)
          · exact .inr (.inr ⟨list, i, place, by omega⟩)

end Entries

section Diagnostics

open SchemaError (isRecursive)

theorem lists_diagnostics (schema : Schema) : schema.Lists
    (entryErrors [] schema.entries ++ schema.entries.flatMap schema.bodyErrors) fun _ => True := by
  have first := lists_entryErrors (List.nil_append schema.entries).symm
  have second := lists_bodyErrors (List.nil_append schema.entries).symm
  refine (first.append second ?_).congr fun violation error violates => ?_
  · grind
  · simp only [iff_true, List.length_nil, List.flatMap_nil, Nat.zero_le, true_and, and_true]
    cases place : violation.place with
    | entry i => rcases rule_of_entry violates place with rfl | rfl | rfl <;> simp
    | name i => simp
    | field list i => simp

/-- Without the cycles there are the errors of the first two passes. -/
theorem filter_not_recursive (schema : Schema) :
    (schema.diagnostics.filter fun error => !isRecursive error) =
      entryErrors [] schema.entries ++ schema.entries.flatMap schema.bodyErrors := by
  have kept {errors : List SchemaError} (plain : errors.filter isRecursive = []) :
      (errors.filter fun error => !isRecursive error) = errors := by
    rw [List.filter_eq_self]
    intro error member
    simpa using List.filter_eq_nil_iff.mp plain error member
  have cycles : (schema.cycles.filter fun error => !isRecursive error) = [] := by
    rw [← filter_diagnostics, List.filter_filter]
    simp
  rw [diagnostics, List.filter_append, List.filter_append, kept (filter_entryErrors _ _),
    kept (filter_bodies _), cycles, List.append_nil]

/-- Apart from the cycles, the diagnostics are the violations of a schema, each of them once. -/
theorem violations_told_once (schema : Schema) :
    ∃ found : List (Violation × SchemaError), (found.map Prod.fst).Nodup ∧
      (∀ violation error, (violation, error) ∈ found ↔ schema.Violates violation error) ∧
      found.map Prod.snd = schema.diagnostics.filter fun error => !isRecursive error := by
  obtain ⟨found, distinct, exact, told⟩ := lists_diagnostics schema
  refine ⟨found, distinct, fun violation error => ?_, ?_⟩
  · rw [exact, true_and]
  · rw [told, filter_not_recursive]

/-- The second field breaks four rules, one of them like the first field. -/
example : (Schema.mk [⟨"A", ⟨"a", "h"⟩, [], .message
    [⟨"1", ⟨.base .string, .one⟩, []⟩, ⟨"1", ⟨.named "B", .array 0⟩, []⟩]⟩]).diagnostics =
    [.invalidIdentifier (.field "A" "1"), .invalidIdentifier (.field "A" "1"),
      .duplicateField "A" "1", .zeroLengthArray (.field "A" "1"),
      .unknownType (.field "A" "1") "B"] := by
  decide +kernel

end Diagnostics

end Schema

end WireSchema
