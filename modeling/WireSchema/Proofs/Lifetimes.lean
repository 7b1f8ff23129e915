import WireSchema.Proofs.Declarations
import WireSchema.Proofs.Describing

/-! The structs in the generated code of a schema agree with one another. -/

namespace WireSchema

open Code

namespace Code

def Declaration.Copied (declared : Declaration) : Prop :=
  "Clone" ∈ declared.derived ∧ "Copy" ∈ declared.derived

/-- A declaration has a lifetime parameter if its fields need one and only then, and is copied if
all that it holds is. -/
structure Declaration.Consistent (declared : Declaration) (others : List Declaration)
    (fields : List FieldItem) : Prop where
  needed : declared.lifetime = true ↔ ∃ field ∈ fields, Mentions "'a" field.typeCode
  used : declared.lifetime = true ↔ Mentions "'a" declared.body
  together : "Clone" ∈ declared.derived ↔ "Copy" ∈ declared.derived
  copied : declared.Copied ↔ ∀ field ∈ fields, field.cardinality ≠ .sequence ∧
    ∀ name flag, field.element = .named name flag →
      ∃ other ∈ others, other.name = name ∧ other.Copied

end Code

namespace Item

/-- The item agrees with all declarations: its own struct does; a value is decoded with the lifetime
of its struct, or with another one if the struct has none, and mentions no second lifetime; and each
reference to a struct has the parameter that the struct declares. -/
structure Consistent (item : Item) (others : List Declaration) : Prop where
  declares : ∀ declared, item.declaration? = some declared → declared.Consistent others item.fields
  decodes : item.isValue = true → ∃ declared body, item.declaration? = some declared ∧
    decodeImplCode declared.name declared.lifetime body <:+: item.code ∧
    ∀ lifetime, Mentions (inputLifetime lifetime) item.code ↔ lifetime = declared.lifetime
  resolves : ∀ element code, (element, code) ∈ item.references →
    ∀ name flag, element = .named name flag →
      ∃ other ∈ others, other.name = name ∧ parameters name (listLeaves code) = [other.lifetime]
  agrees : ∀ element code, (element, code) ∈ item.references →
    ∀ other ∈ others, ∀ flag ∈ parameters other.name (listLeaves code), flag = other.lifetime
  written : ∀ element code, (element, code) ∈ item.references → Within code item.code

end Item

structure FlagsFit (lifetime copied : Bool) (others : List Declaration) (fields : List FieldItem) :
    Prop where
  lifetime : lifetime = true ↔ ∃ field ∈ fields, field.mentionsLifetime = true
  copied : copied = true ↔ ∀ field ∈ fields, field.cardinality ≠ .sequence ∧
    ∀ name flag, field.element = .named name flag →
      ∃ other ∈ others, other.name = name ∧ other.Copied

section Consistency

variable {name : String} {lifetime copied : Bool} {others : List Declaration}
  {fields : List FieldItem}

def Code.Declaration.Derives (declared : Declaration) (copied : Bool) : Prop :=
  ∀ word ∈ ["Clone", "Copy"], word ∈ declared.derived ↔ copied = true

theorem Code.Declaration.Derives.copied_iff {declared : Declaration}
    (derives : declared.Derives copied) : declared.Copied ↔ copied = true := by
  rw [Declaration.Copied, derives "Clone" (by decide), derives "Copy" (by decide), and_self_iff]

theorem derives_record {body : List Code} : Declaration.Derives ⟨listLeaves (words
    (if copied then "Debug , Clone , Copy , PartialEq" else "Debug , PartialEq")), name, lifetime,
      body⟩ copied := by
  have derived : ∀ copied : Bool, ∀ word ∈ ["Clone", "Copy"], word ∈ listLeaves (words
      (if copied then "Debug , Clone , Copy , PartialEq" else "Debug , PartialEq")) ↔
        copied = true := by
    decide +kernel
  exact derived copied

theorem derives_alias {body : List Code} : Declaration.Derives ⟨listLeaves (words
    (if copied then "Debug , Default , Clone , Copy , PartialEq"
      else "Debug , Default , PartialEq")), name, lifetime, body⟩ copied := by
  have derived : ∀ copied : Bool, ∀ word ∈ ["Clone", "Copy"], word ∈ listLeaves (words
      (if copied then "Debug , Default , Clone , Copy , PartialEq"
        else "Debug , Default , PartialEq")) ↔ copied = true := by
    decide +kernel
  exact derived copied

theorem derives_service {body : List Code} : Declaration.Derives ⟨listLeaves (words
    "Debug , Clone , Copy , PartialEq , Eq , Default"), name, lifetime, body⟩ true := by
  have derived : ∀ word ∈ ["Clone", "Copy"], word ∈ listLeaves (words
      "Debug , Clone , Copy , PartialEq , Eq , Default") ↔ true = true := by
    decide +kernel
  exact derived

theorem FlagsFit.own (fit : FlagsFit lifetime copied others fields) :
    ∀ field ∈ fields, field.mentionsLifetime = true → lifetime = true :=
  fun field member mentions => fit.lifetime.mpr ⟨field, member, mentions⟩

theorem FlagsFit.consistent {declared : Declaration}
    (fit : FlagsFit declared.lifetime copied others fields)
    (plain : ∀ field ∈ fields, field.element.Plain)
    (derives : declared.Derives copied)
    (used : Mentions "'a" declared.body ↔ ∃ field ∈ fields, field.mentionsLifetime = true) :
    declared.Consistent others fields := by
  have together := (derives "Clone" (by decide)).trans (derives "Copy" (by decide)).symm
  refine ⟨?_, fit.lifetime.trans used.symm, together, derives.copied_iff.trans fit.copied⟩
  rw [fit.lifetime]
  refine exists_congr fun field => and_congr_right fun member => ?_
  have mentions := FieldItem.mentions_typeCode (plain field member) true
  exact (mentions.trans (and_iff_right rfl)).symm

theorem consistent_record {role : Role} {docs : List String}
    (fit : FlagsFit lifetime copied others fields) (plain : ∀ field ∈ fields, field.Plain) :
    ∀ declared, (Item.record name role docs lifetime copied fields).declaration? = some declared →
      declared.Consistent others fields := by
  intro declared found
  rw [Item.declaration?_record] at found
  obtain rfl := Option.some.inj found
  have elements := fun field member => (plain field member).element
  refine FlagsFit.consistent fit elements derives_record ?_
  rw [mentions_flatMap]
  refine exists_congr fun field => and_congr_right fun member => ?_
  exact (FieldItem.mentions_declarationCode (plain field member) true).trans (and_iff_right rfl)

theorem consistent_alias {docs : List String} {target : ElementItem}
    (fit : FlagsFit lifetime copied others [⟨"0", [], target, .one⟩]) (plain : target.Plain) :
    ∀ declared, (Item.alias name docs lifetime copied target).declaration? = some declared →
      declared.Consistent others [⟨"0", [], target, .one⟩] := by
  intro declared found
  rw [Item.declaration?_alias] at found
  obtain rfl := Option.some.inj found
  refine FlagsFit.consistent fit ?_ derives_alias ?_
  · intro field member
    rw [List.mem_singleton.mp member]
    exact plain
  · have inner : Mentions "'a" target.code ↔ true = true ∧ target.mentionsLifetime = true :=
      ElementItem.mentions_code plain true
    rw [mentions_word, inner]
    simp [FieldItem.mentionsLifetime]

theorem consistent_service {docs : List String} {request reply : ElementItem}
    (unbroken : ' ' ∉ name.toList) :
    ∀ declared, (Item.service name docs request reply).declaration? = some declared →
      declared.Consistent others [] := by
  intro declared found
  rw [Item.declaration?_service unbroken] at found
  obtain rfl := Option.some.inj found
  have fit : FlagsFit false true others [] := ⟨by simp, by simp⟩
  exact FlagsFit.consistent fit (by simp) derives_service (by simp)

end Consistency

theorem mentions_iff_of_infix {name : String} {lifetime : Bool} {body code : List Code}
    (inside : decodeImplCode name lifetime body <:+: code) (only : Only lifetime code)
    (other : Bool) : Mentions (inputLifetime other) code ↔ other = lifetime :=
  ⟨only other, fun same => same ▸ mentions_of_infix inside⟩

namespace Schema

variable {schema : Schema} {name : String}

theorem hasPart_iff (distinct : schema.names.Nodup) {entry : Entry} {parts : List FieldType}
    (member : entry ∈ schema.entries) (struct : (name, parts) ∈ entry.structs) {part : FieldType} :
    schema.HasPart name part ↔ part ∈ parts := by
  constructor
  · intro has
    rcases has with ⟨other, otherIn, otherParts, otherStruct, inside⟩
    obtain rfl := entry_unique distinct member otherIn (mem_names_of_struct struct)
      (mem_names_of_struct otherStruct)
    have keys : (entry.structs.map Prod.fst).Nodup :=
      (List.nodup_flatMap.mp (nodup_structs distinct)).1 entry member
    have known := lookup_eq_some_of_mem keys struct
    have again := lookup_eq_some_of_mem keys otherStruct
    rw [Option.some.inj (known.symm.trans again)]
    exact inside
  · exact fun inside => ⟨entry, member, parts, struct, inside⟩

/-- A service itself is no struct with parts. -/
theorem not_hasPart_service (distinct : schema.names.Nodup) {entry : Entry}
    (member : entry ∈ schema.entries) (service : entry.body.isService = true)
    (part : FieldType) : ¬ schema.HasPart entry.name part := by
  intro has
  rcases has with ⟨other, otherIn, parts, struct, -⟩
  obtain rfl := entry_unique distinct member otherIn entry.name_mem_names
    (mem_names_of_struct struct)
  have listed : entry.name ∈ entry.structs.map Prod.fst := List.mem_map.mpr ⟨_, struct, rfl⟩
  have apart := (List.nodup_flatMap.mp distinct).1 entry member
  obtain ⟨name, identity, docs, body⟩ := entry
  cases body with
  | service request reply => exact (List.nodup_cons.mp apart).1 listed
  | message fields => cases service
  | «alias» target => cases service

theorem structName_append {suffix : String} (valid : isIdentifier name = true)
    (parts : suffix.toList.all isIdentifierRest = true) (not_as : name ++ suffix ≠ "as")
    (unreserved : ∀ base : BaseType, name ++ suffix ∉ base.spellings) :
    StructName (name ++ suffix) := by
  obtain ⟨c, cs, shape, start, rest⟩ := Token.exists_of_isIdentifier valid
  refine ⟨⟨c, cs ++ suffix.toList, ?_, start⟩, ?_, not_as, unreserved⟩
  · rw [String.toList_append, shape, List.cons_append]
  · intro d member
    rw [String.toList_append, shape, List.mem_append, List.mem_cons] at member
    rcases member with (rfl | member) | member
    · exact Token.isIdentifierRest_iff.mpr (.inl start)
    · exact List.all_eq_true.mp rest d member
    · exact List.all_eq_true.mp parts d member

theorem structName_of_mem_names (wellFormed : schema.WellFormed) (member : name ∈ schema.names) :
    StructName name := by
  have unreserved := wellFormed.names_unreserved name member
  obtain ⟨entry, inside, own⟩ := List.mem_flatMap.mp member
  have valid := wellFormed.name_valid entry inside
  have whole (same : name = entry.name) : StructName name := by
    have not_as : entry.name ≠ "as" := fun same => by
      rw [same] at valid
      exact absurd valid (by decide)
    have named := structName_append valid (show "".toList.all isIdentifierRest = true by decide)
    rw [String.append_empty] at named
    exact same ▸ named not_as (same ▸ unreserved)
  have part {suffix : String} (parts : suffix.toList.all isIdentifierRest = true)
      (long : 2 < suffix.length) (same : name = entry.name ++ suffix) : StructName name := by
    have not_as : entry.name ++ suffix ≠ "as" := fun same => by
      have length := congrArg String.length same
      rw [String.length_append] at length
      have two : "as".length = 2 := rfl
      omega
    exact same ▸ structName_append valid parts not_as (same ▸ unreserved)
  rw [Entry.names] at own
  split at own
  · exact whole (List.mem_singleton.mp own)
  · exact whole (List.mem_singleton.mp own)
  · rcases List.mem_cons.mp own with same | own
    · exact whole same
    · rcases List.mem_cons.mp own with same | own
      · exact part (by decide) (by decide) same
      · exact part (by decide) (by decide) (List.mem_singleton.mp own)

end Schema

namespace CompiledSchema

variable {schema : Schema} {compiled : CompiledSchema} {name : String}

theorem elementItem_eq_named {element : TypeRef} {flag : Bool}
    (same : compiled.elementItem element = .named name flag) :
    element = .named name ∧ flag = compiled.borrows name := by
  cases element with
  | base type => cases same
  | named own =>
    obtain ⟨rfl, rfl⟩ := ElementItem.named.inj same
    exact ⟨rfl, rfl⟩

theorem mentionsLifetime_iff {part : FieldType} {field : FieldItem}
    (element : field.element = compiled.elementItem part.element)
    (cardinality : field.cardinality = part.cardinality) :
    field.mentionsLifetime = true ↔ part.Shows .borrowed ∨
      ∃ target, part.element = .named target ∧ compiled.borrows target = true := by
  rw [FieldItem.mentionsLifetime, element, cardinality, FieldType.Shows]
  cases part.element with
  | named target => simp [elementItem, namedItem, ElementItem.mentionsLifetime]
  | base type =>
    cases type <;> simp [elementItem, ElementItem.mentionsLifetime]

theorem borrows_iff_part (compiles : schema.compile = .ok compiled) :
    compiled.borrows name = true ↔ ∃ part, schema.HasPart name part ∧
      (part.Shows .borrowed ∨
        ∃ target, part.element = .named target ∧ compiled.borrows target = true) := by
  simp only [borrows_iff compiles]
  exact Schema.reaches_iff

theorem isCopy_iff_part (compiles : schema.compile = .ok compiled) :
    compiled.isCopy name = true ↔ ∀ part, schema.HasPart name part →
      part.cardinality ≠ .sequence ∧
        ∀ target, part.element = .named target → compiled.isCopy target = true := by
  have moved (name : String) : compiled.isCopy name = true ↔ ¬ schema.Reaches .sequence name := by
    rw [← isCopy_eq_false_iff compiles, Bool.not_eq_false]
  simp only [moved]
  rw [Schema.reaches_iff]
  simp only [FieldType.Shows]
  push Not
  rfl

structure Declared (compiled : CompiledSchema) (declared : Declaration) : Prop where
  lifetime : declared.lifetime = compiled.borrows declared.name
  copied : declared.Copied ↔ compiled.isCopy declared.name = true

theorem declared_of_entry (compiles : schema.compile = .ok compiled) {entry : Entry}
    (member : entry ∈ schema.entries) :
    (∀ declared ∈ (compiled.entryItems entry).filterMap Item.declaration?,
      compiled.Declared declared) ∧
    (((compiled.entryItems entry).filterMap Item.declaration?).map Declaration.name).Perm
      entry.names := by
  have wellFormed := (Schema.compile_eq_ok compiles).1
  have record {name : String} {body : List Code} : compiled.Declared ⟨listLeaves (words
      (if compiled.isCopy name then "Debug , Clone , Copy , PartialEq" else "Debug , PartialEq")),
      name, compiled.borrows name, body⟩ := ⟨rfl, derives_record.copied_iff⟩
  obtain ⟨name, identity, docs, body⟩ := entry
  cases body with
  | message fields =>
    simp only [entryItems, recordItem, List.filterMap_cons, Item.declaration?_record,
      Item.declaration?_identity, List.filterMap_nil, List.map_cons, List.map_nil]
    exact ⟨List.forall_mem_singleton.mpr record, List.Perm.refl _⟩
  | «alias» target =>
    simp only [entryItems, List.filterMap_cons, Item.declaration?_alias,
      Item.declaration?_identity, List.filterMap_nil, List.map_cons, List.map_nil]
    exact ⟨List.forall_mem_singleton.mpr ⟨rfl, derives_alias.copied_iff⟩, List.Perm.refl _⟩
  | service request reply =>
    have apart := Schema.not_hasPart_service wellFormed.names_distinct member rfl
    have unbroken := (Schema.structName_of_mem_names wellFormed
      (List.mem_flatMap.mpr ⟨_, member, Entry.name_mem_names _⟩)).not_space
    have marker {body : List Code} : compiled.Declared ⟨listLeaves (words
        "Debug , Clone , Copy , PartialEq , Eq , Default"), name, false, body⟩ := by
      have unborrowed : ¬ compiled.borrows name = true := by
        rw [borrows_iff_part compiles]
        exact fun ⟨part, has, _⟩ => apart part has
      have copied : compiled.isCopy name = true :=
        (isCopy_iff_part compiles).mpr fun part has => absurd has (apart part)
      refine ⟨(Bool.eq_false_of_not_eq_true unborrowed).symm, ?_⟩
      rw [derives_service.copied_iff, copied]
    simp only [entryItems, recordItem, List.filterMap_cons, Item.declaration?_record,
      Item.declaration?_service unbroken, Item.declaration?_identity, List.filterMap_nil,
      List.map_cons, List.map_nil]
    have rotated : ([requestName name, replyName name] ++ [name]).Perm
      ([name] ++ [requestName name, replyName name]) := List.perm_append_comm
    refine ⟨?_, rotated⟩
    simp only [List.forall_mem_cons]
    exact ⟨record, record, marker, fun _ nothing => absurd nothing List.not_mem_nil⟩

theorem declarations_eq (compiled : CompiledSchema) : compiled.declarations =
    compiled.schema.entries.flatMap fun entry =>
      (compiled.entryItems entry).filterMap Item.declaration? :=
  List.filterMap_flatMap

theorem map_name_declarations (compiles : schema.compile = .ok compiled) :
    (compiled.declarations.map Declaration.name).Perm schema.names := by
  obtain ⟨-, rfl⟩ := Schema.compile_eq_ok compiles
  rw [declarations_eq, List.map_flatMap, Schema.names]
  exact List.Perm.flatMap_left _ fun entry member => (declared_of_entry compiles member).2

theorem declared_of_mem (compiles : schema.compile = .ok compiled) :
    ∀ declared ∈ compiled.declarations, compiled.Declared declared := by
  intro declared member
  obtain ⟨-, rfl⟩ := Schema.compile_eq_ok compiles
  rw [declarations_eq] at member
  obtain ⟨entry, inside, own⟩ := List.mem_flatMap.mp member
  exact (declared_of_entry compiles inside).1 declared own

theorem exists_declared (compiles : schema.compile = .ok compiled) (member : name ∈ schema.names) :
    ∃ declared ∈ compiled.declarations, declared.name = name :=
  List.mem_map.mp ((map_name_declarations compiles).mem_iff.mpr member)

def Resolves (compiled : CompiledSchema) (element : ElementItem) : Prop :=
  ∀ name flag, element = .named name flag →
    name ∈ compiled.schema.names ∧ flag = compiled.borrows name

theorem Resolves.named (compiles : schema.compile = .ok compiled) {element : ElementItem}
    (resolves : compiled.Resolves element) : element.Named := by
  obtain ⟨wellFormed, rfl⟩ := Schema.compile_eq_ok compiles
  exact fun name flag same =>
    Schema.structName_of_mem_names wellFormed (resolves name flag same).1

theorem resolves_elementItem (compiles : schema.compile = .ok compiled) {entry : Entry}
    {element : TypeRef} (member : entry ∈ schema.entries) (used : element ∈ entry.body.elements) :
    compiled.Resolves (compiled.elementItem element) := by
  obtain ⟨wellFormed, rfl⟩ := Schema.compile_eq_ok compiles
  intro name flag same
  obtain ⟨rfl, borrows⟩ := elementItem_eq_named same
  obtain ⟨declaring, inside, rfl, -⟩ := wellFormed.references_declared entry member name used
  exact ⟨List.mem_flatMap.mpr ⟨declaring, inside, declaring.name_mem_names⟩, borrows⟩

/-- The flags of a struct, against fields that are made from its parts. -/
theorem flagsFit (compiles : schema.compile = .ok compiled) {entry : Entry}
    (member : entry ∈ schema.entries) {α : Type} {sources : List α} {part : α → FieldType}
    {item : α → FieldItem} (struct : (name, sources.map part) ∈ entry.structs)
    (element : ∀ source, (item source).element = compiled.elementItem (part source).element)
    (cardinality : ∀ source, (item source).cardinality = (part source).cardinality) :
    FlagsFit (compiled.borrows name) (compiled.isCopy name) compiled.declarations
      (sources.map item) := by
  have distinct := (Schema.compile_eq_ok compiles).1.names_distinct
  have has {source : α} (inside : source ∈ sources) : schema.HasPart name (part source) :=
    (Schema.hasPart_iff distinct member struct).mpr (List.mem_map.mpr ⟨source, inside, rfl⟩)
  have made {found : FieldType} (has : schema.HasPart name found) :
      ∃ source ∈ sources, part source = found :=
    List.mem_map.mp ((Schema.hasPart_iff distinct member struct).mp has)
  constructor
  · rw [borrows_iff_part compiles]
    constructor
    · intro ⟨found, hasFound, shows⟩
      obtain ⟨source, inside, rfl⟩ := made hasFound
      exact ⟨item source, List.mem_map.mpr ⟨source, inside, rfl⟩,
        (mentionsLifetime_iff (element source) (cardinality source)).mpr shows⟩
    · intro ⟨field, listed, mentions⟩
      obtain ⟨source, inside, rfl⟩ := List.mem_map.mp listed
      exact ⟨part source, has inside,
        (mentionsLifetime_iff (element source) (cardinality source)).mp mentions⟩
  · rw [isCopy_iff_part compiles]
    constructor
    · intro all field listed
      obtain ⟨source, inside, rfl⟩ := List.mem_map.mp listed
      obtain ⟨single, targets⟩ := all (part source) (has inside)
      refine ⟨cardinality source ▸ single, fun target flag same => ?_⟩
      have used := Schema.element_mem_of_struct struct (List.mem_map.mpr ⟨source, inside, rfl⟩)
      rw [element] at same
      obtain ⟨known, -⟩ := resolves_elementItem compiles member used target flag same
      rw [schema_eq compiles] at known
      obtain ⟨other, declared, rfl⟩ := exists_declared compiles known
      have copy := targets other.name (elementItem_eq_named same).1
      exact ⟨other, declared, rfl, (declared_of_mem compiles other declared).copied.mpr copy⟩
    · intro all found hasFound
      obtain ⟨source, inside, rfl⟩ := made hasFound
      obtain ⟨single, targets⟩ := all (item source) (List.mem_map.mpr ⟨source, inside, rfl⟩)
      refine ⟨cardinality source ▸ single, fun target same => ?_⟩
      have named : (item source).element = .named target (compiled.borrows target) := by
        rw [element, same]
        rfl
      obtain ⟨other, declared, rfl, copied⟩ := targets target _ named
      exact (declared_of_mem compiles other declared).copied.mp copied

theorem consistent_of_resolves (compiles : schema.compile = .ok compiled) {item : Item}
    (resolves : ∀ element code, (element, code) ∈ item.references → compiled.Resolves element)
    (declares : ∀ declared, item.declaration? = some declared →
      declared.Consistent compiled.declarations item.fields)
    (decodes : item.isValue = true → ∃ declared body, item.declaration? = some declared ∧
      decodeImplCode declared.name declared.lifetime body <:+: item.code ∧
      ∀ lifetime, Mentions (inputLifetime lifetime) item.code ↔ lifetime = declared.lifetime) :
    item.Consistent compiled.declarations := by
  obtain ⟨wellFormed, rfl⟩ := Schema.compile_eq_ok compiles
  have owned (element : ElementItem) (code : List Code)
      (member : (element, code) ∈ item.references) : element.Named :=
    (resolves element code member).named compiles
  have reads {name : String} (known : name ∈ schema.names) {element : ElementItem}
      {code : List Code} (member : (element, code) ∈ item.references) :
      parameters name (listLeaves code) = element.parameters name :=
    Item.parameters_of_mem (Schema.structName_of_mem_names wellFormed known) owned member
  refine ⟨declares, decodes, ?_, ?_, fun _ _ => Item.within_of_mem⟩
  · intro element code member name flag same
    obtain ⟨known, borrows⟩ := resolves element code member name flag same
    obtain ⟨other, declared, rfl⟩ := exists_declared compiles known
    refine ⟨other, declared, rfl, ?_⟩
    rw [reads known member, same, ElementItem.parameters, if_pos rfl, borrows,
      (declared_of_mem compiles other declared).lifetime]
  · intro element code member other declared flag inside
    have known : other.name ∈ schema.names :=
      (map_name_declarations compiles).mem_iff.mp (List.mem_map.mpr ⟨other, declared, rfl⟩)
    rw [reads known member] at inside
    cases element with
    | base type => cases inside
    | named own lifetime =>
      rw [ElementItem.parameters] at inside
      split at inside
      · rename_i same
        rw [List.mem_singleton.mp inside, (resolves _ _ member own lifetime rfl).2, same,
          (declared_of_mem compiles other declared).lifetime]
      · cases inside

theorem consistent_recordItem (compiles : schema.compile = .ok compiled) {entry : Entry}
    (member : entry ∈ schema.entries) {fields : List Field}
    (listed : (name, fields) ∈ entry.fieldLists) (role : Role) (docs : List String) :
    (compiled.recordItem name role docs fields).Consistent compiled.declarations := by
  have wellFormed := (Schema.compile_eq_ok compiles).1
  have struct := Entry.struct_of_fieldList listed
  have named := (Schema.structName_of_mem_names wellFormed
    (List.mem_flatMap.mpr ⟨entry, member, Schema.mem_names_of_struct struct⟩)).plain
  have fit : FlagsFit (compiled.borrows name) (compiled.isCopy name) compiled.declarations
      (fields.map compiled.fieldItem) :=
    flagsFit compiles member struct (fun _ => rfl) fun _ => rfl
  have resolves : ∀ field ∈ fields.map compiled.fieldItem, compiled.Resolves field.element := by
    intro item inside
    obtain ⟨field, own, rfl⟩ := List.mem_map.mp inside
    exact resolves_elementItem compiles member
      (Schema.element_mem_of_struct struct (List.mem_map.mpr ⟨field, own, rfl⟩))
  have plain : ∀ field ∈ fields.map compiled.fieldItem, field.Plain := by
    intro item inside
    obtain ⟨field, own, rfl⟩ := List.mem_map.mp inside
    have inBody : fields ∈ entry.body.fieldLists := by
      rw [← Entry.map_snd_fieldLists]
      exact List.mem_map.mpr ⟨_, listed, rfl⟩
    have valid := (wellFormed.fields_wellFormed entry member fields inBody).valid field own
    exact ⟨plain_of_isIdentifier valid, ((resolves _ inside).named compiles).plain⟩
  apply consistent_of_resolves compiles
  · intro element code inside
    obtain ⟨field, own, rfl⟩ := exists_field_of_mem inside
    exact resolves field own
  · exact consistent_record fit plain
  · intro _
    obtain ⟨body, inside⟩ := decodeImplCode_infix_recordCode name role docs
      (compiled.borrows name) (compiled.isCopy name) (fields.map compiled.fieldItem)
    exact ⟨_, body, Item.declaration?_record .., inside,
      mentions_iff_of_infix inside (only_recordCode named plain fit.own)⟩

theorem consistent_aliasItem (compiles : schema.compile = .ok compiled) {entry : Entry}
    (member : entry ∈ schema.entries) {target : TypeRef} (aliased : entry.body = .alias target) :
    (Item.alias entry.name entry.docs (compiled.borrows entry.name) (compiled.isCopy entry.name)
      (compiled.elementItem target)).Consistent compiled.declarations := by
  have wellFormed := (Schema.compile_eq_ok compiles).1
  have named := (Schema.structName_of_mem_names wellFormed
    (List.mem_flatMap.mpr ⟨entry, member, entry.name_mem_names⟩)).plain
  have struct : (entry.name, [target].map fun target => ⟨target, .one⟩) ∈ entry.structs := by
    rw [Entry.structs, aliased]
    exact List.mem_singleton_self _
  have fit : FlagsFit (compiled.borrows entry.name) (compiled.isCopy entry.name)
      compiled.declarations
      ([target].map fun target => ⟨"0", [], compiled.elementItem target, .one⟩) :=
    flagsFit compiles member struct (fun _ => rfl) fun _ => rfl
  have resolves : compiled.Resolves (compiled.elementItem target) :=
    resolves_elementItem compiles member
      (Schema.element_mem_of_struct struct (List.mem_singleton_self _))
  have plain := (resolves.named compiles).plain
  apply consistent_of_resolves compiles
  · intro element code inside
    obtain ⟨field, own, rfl⟩ := exists_field_of_mem inside
    rw [List.mem_singleton.mp own]
    exact resolves
  · exact consistent_alias fit plain
  · intro _
    obtain ⟨body, inside⟩ := decodeImplCode_infix_aliasCode entry.name entry.docs
      (compiled.borrows entry.name) (compiled.isCopy entry.name) (compiled.elementItem target)
    have own (mentions : (compiled.elementItem target).mentionsLifetime = true) :
        compiled.borrows entry.name = true :=
      fit.own _ (List.mem_singleton_self _) (FieldItem.mentionsLifetime_of_element mentions)
    exact ⟨_, body, Item.declaration?_alias .., inside,
      mentions_iff_of_infix inside (only_aliasCode named plain own)⟩

theorem consistent_serviceItem (compiles : schema.compile = .ok compiled) {entry : Entry}
    (member : entry ∈ schema.entries) (service : entry.body.isService = true) :
    (Item.service entry.name entry.docs (compiled.namedItem (requestName entry.name))
      (compiled.namedItem (replyName entry.name))).Consistent compiled.declarations := by
  obtain ⟨wellFormed, rfl⟩ := Schema.compile_eq_ok compiles
  have names : entry.names = [entry.name, requestName entry.name, replyName entry.name] := by
    obtain ⟨name, identity, docs, body⟩ := entry
    cases body with
    | service request reply => rfl
    | message fields => cases service
    | «alias» target => cases service
  have known {name : String}
      (own : name ∈ [entry.name, requestName entry.name, replyName entry.name]) :
      name ∈ schema.names :=
    List.mem_flatMap.mpr ⟨entry, member, names ▸ own⟩
  have unbroken := (Schema.structName_of_mem_names wellFormed (known List.mem_cons_self)).not_space
  apply consistent_of_resolves compiles
  · intro element code inside name flag same
    rcases List.mem_cons.mp inside with first | second
    · obtain ⟨rfl, -⟩ := Prod.mk.inj first
      obtain ⟨rfl, rfl⟩ := ElementItem.named.inj same
      exact ⟨known (by simp), rfl⟩
    · obtain ⟨rfl, -⟩ := Prod.mk.inj (List.mem_singleton.mp second)
      obtain ⟨rfl, rfl⟩ := ElementItem.named.inj same
      exact ⟨known (by simp), rfl⟩
  · exact consistent_service unbroken
  · intro value
    cases value

theorem consistent_identityItem (compiles : schema.compile = .ok compiled) {entry : Entry}
    (member : entry ∈ schema.entries) : (Item.identity entry.name (compiled.borrows entry.name)
      entry.identity).Consistent compiled.declarations := by
  obtain ⟨-, rfl⟩ := Schema.compile_eq_ok compiles
  apply consistent_of_resolves compiles
  · intro element code inside name flag same
    obtain ⟨rfl, -⟩ := Prod.mk.inj (List.mem_singleton.mp inside)
    obtain ⟨rfl, rfl⟩ := ElementItem.named.inj same
    exact ⟨List.mem_flatMap.mpr ⟨entry, member, entry.name_mem_names⟩, rfl⟩
  · intro declared found
    rw [Item.declaration?_identity] at found
    cases found
  · intro value
    cases value

/-- The declarations of generated code have distinct names, and every item agrees with them. -/
theorem items_consistent (compiles : schema.compile = .ok compiled) :
    (compiled.declarations.map Declaration.name).Nodup ∧
    ∀ item ∈ compiled.items, item.Consistent compiled.declarations := by
  have wellFormed := (Schema.compile_eq_ok compiles).1
  refine ⟨(map_name_declarations compiles).nodup_iff.mpr wellFormed.names_distinct, ?_⟩
  intro item listed
  obtain ⟨entry, member, own⟩ := List.mem_flatMap.mp listed
  rw [schema_eq compiles] at member
  have identity := consistent_identityItem compiles member
  have record {name : String} {fields : List Field} (listed : (name, fields) ∈ entry.fieldLists) :=
    consistent_recordItem compiles member listed
  have aliased {target : TypeRef} (body : entry.body = .alias target) :=
    consistent_aliasItem compiles member body
  have service := consistent_serviceItem compiles member
  obtain ⟨name, known, docs, body⟩ := entry
  cases body with
  | message fields =>
    simp only [entryItems, List.mem_cons, List.not_mem_nil, or_false] at own
    rcases own with rfl | rfl
    · exact record (List.mem_singleton_self _) _ _
    · exact identity
  | «alias» target =>
    simp only [entryItems, List.mem_cons, List.not_mem_nil, or_false] at own
    rcases own with rfl | rfl
    · exact aliased rfl
    · exact identity
  | service request reply =>
    simp only [entryItems, List.mem_cons, List.not_mem_nil, or_false] at own
    rcases own with rfl | rfl | rfl | rfl
    · exact record List.mem_cons_self _ _
    · exact record (List.mem_cons_of_mem _ (List.mem_singleton_self _)) _ _
    · exact service rfl
    · exact identity

/-- A message without a lifetime in a sequence, and a service whose halves differ. -/
theorem items_consistent_sampleSchema :
    ∃ compiled, Schema.sampleSchema.compile = .ok compiled ∧
      compiled.declarations.map (fun declared =>
        (declared.name, declared.lifetime, declared.derived.contains "Copy")) =
        [("Point", false, true), ("Line", true, false), ("MeasureRequest", true, false),
          ("MeasureReply", false, true), ("Measure", false, true)] ∧
      ∀ item ∈ compiled.items, item.Consistent compiled.declarations := by
  have clean : Schema.sampleSchema.diagnostics = [] := by
    decide +kernel
  have compiles : Schema.sampleSchema.compile =
      .ok ⟨Schema.sampleSchema, .ofSchema Schema.sampleSchema⟩ := by
    rw [Schema.compile, clean]
  refine ⟨_, compiles, ?_, (items_consistent compiles).2⟩
  decide +kernel

end CompiledSchema

end WireSchema
