import WireSchema.Proofs.Describing

/-! The recursions along references need no more depth than there are entries. -/

namespace WireSchema

section Fold

variable {σ α : Type}

theorem foldlM_eq_some {step : σ → α → Option σ} {plain : σ → α → σ} {items : List α}
    (each : ∀ s, ∀ item ∈ items, step s item = some (plain s item)) (s : σ) :
    items.foldlM step s = some (items.foldl plain s) := by
  induction items generalizing s with
  | nil => rfl
  | cons item rest ih =>
    rw [List.foldlM_cons, each s item List.mem_cons_self]
    exact ih (fun s other member => each s other (List.mem_cons_of_mem _ member)) _

end Fold

namespace ReferenceGraph

/-- `search` with room for `depth` calls inside one another; without an answer there was too
little. -/
def searchWithin (graph : ReferenceGraph) :
    (depth : Nat) → (path : List String) → (name : String) → Search → Option Search
  | 0, _, _, _ => none
  | depth + 1, path, name, found =>
    if found.finished.contains name then some found
    else if path.contains name then
      let cycle := path.dropWhile (· != name) ++ [name]
      some { found with errors := found.errors ++ [.recursiveType name cycle] }
    else
      match graph.targets? name with
      | none => some found
      | some targets => do
        let walked ← targets.foldlM
          (fun s target => graph.searchWithin depth (path ++ [name]) target s) found
        return { walked with finished := name :: walked.finished }

variable {graph : ReferenceGraph} {path : List String} {name : String}

/-- Each call puts a name on the way that was not there. -/
theorem searchWithin_eq_search {depth : Nat} (enough : graph.unvisited path < depth)
    (found : Search) :
    graph.searchWithin depth path name found = some (graph.search path name found) := by
  induction depth generalizing path name found with
  | zero => exact (Nat.not_lt_zero _ enough).elim
  | succ depth ih =>
    rw [searchWithin]
    by_cases finished : found.finished.contains name = true
    · rw [if_pos finished, search_of_finished (List.contains_iff_mem.mp finished)]
    have unfinished : name ∉ found.finished := by simpa using finished
    rw [if_neg finished]
    by_cases met : path.contains name = true
    · rw [if_pos met, search_of_met unfinished (List.contains_iff_mem.mp met)]
    have fresh : name ∉ path := by simpa using met
    rw [if_neg met]
    cases known : graph.targets? name with
    | none => rw [search_of_unknown fresh known]
    | some targets =>
      have closer := unvisited_append_lt known met
      have each (s : Search) (target : String) (_ : target ∈ targets) :
          graph.searchWithin depth (path ++ [name]) target s =
            some (graph.search (path ++ [name]) target s) := ih (by omega) s
      rw [search_of_known unfinished fresh known]
      simp only [foldlM_eq_some each found]
      rfl

theorem unvisited_le_length (graph : ReferenceGraph) (path : List String) :
    graph.unvisited path ≤ graph.length :=
  List.length_filter_le _ _

end ReferenceGraph

namespace Schema

def cyclesWithin (schema : Schema) (depth : Nat) : Option (List SchemaError) := do
  let graph := ReferenceGraph.ofSchema schema
  let found ← schema.entries.foldlM
    (fun s entry => graph.searchWithin depth [] entry.name s) ⟨[], []⟩
  return found.errors

theorem cyclesWithin_eq_cycles (schema : Schema) {depth : Nat}
    (enough : schema.entries.length < depth) : schema.cyclesWithin depth = some schema.cycles := by
  have graph : (ReferenceGraph.ofSchema schema).length ≤ schema.entries.length :=
    List.length_filterMap_le _ _
  have unvisited := ReferenceGraph.unvisited_le_length (.ofSchema schema) []
  have each (s : ReferenceGraph.Search) (entry : Entry) (_ : entry ∈ schema.entries) :
      (ReferenceGraph.ofSchema schema).searchWithin depth [] entry.name s =
        some ((ReferenceGraph.ofSchema schema).search [] entry.name s) :=
    ReferenceGraph.searchWithin_eq_search (by omega) s
  simp only [cyclesWithin, foldlM_eq_some each]
  rfl

end Schema

theorem Contents.ext_has {a b : Contents} (same : ∀ what, a.has what = b.has what) : a = b := by
  obtain ⟨borrowed, sequence⟩ := a
  have first := same .borrowed
  have second := same .sequence
  simp only [has] at first second
  rw [first, second]

/-- A step of finding out what occurs in types. It remembers the contents of the names that it is
done with, and has no answer when the depth runs out. -/
abbrev Inference := StateT ContentsTable Option

namespace Inference

def ofElement (ofName : String → Inference Contents) : TypeRef → Inference Contents
  | .base (.scalar _) => pure .empty
  | .base .string => pure ⟨true, false⟩
  | .named name => ofName name

/-- The element of a sequence is looked into as well, though it makes no difference. -/
def ofField (ofName : String → Inference Contents) (field : Field) : Inference Contents := do
  let element ← ofElement ofName field.type.element
  return match field.type.cardinality with
    | .sequence => ⟨true, true⟩
    | .one | .array _ => element

def ofFields (ofName : String → Inference Contents) (fields : List Field) : Inference Contents :=
  fields.foldlM (fun found field => do return found.union (← ofField ofName field)) .empty

def ofBody (ofName : String → Inference Contents) : Body → Inference Contents
  | .message fields => ofFields ofName fields
  | .alias target => ofElement ofName target
  | .service .. => pure .empty

/-- What occurs in the first declaration of a name, with room for `depth` calls inside one another.
Nothing else stops a walk that comes back to a name it has not finished. -/
def ofName (schema : Schema) : (depth : Nat) → String → Inference Contents
  | 0, _ => failure
  | depth + 1, name => do
    match (← get).lookup name with
    | some known => return known
    | none =>
      let contents ← match schema.find? name with
        | some entry => ofBody (ofName schema depth) entry.body
        | none => pure .empty
      modify ((name, contents) :: ·)
      return contents

def ofEntry (schema : Schema) (depth : Nat) (entry : Entry) : Inference ContentsTable :=
  match entry.body with
  | .message _ | .alias _ => do return [(entry.name, ← ofName schema depth entry.name)]
  | .service .. => entry.fieldLists.mapM fun (owner, fields) => do
    return (owner, ← ofFields (ofName schema depth) fields)

def ofSchema (schema : Schema) (depth : Nat) : Inference ContentsTable := do
  return (← schema.entries.mapM (ofEntry schema depth)).flatten

def Remembers (table memo : ContentsTable) : Prop :=
  ∀ name contents, memo.lookup name = some contents → contents = table.get name

def Finds {α : Type} (table : ContentsTable) (step : Inference α) (value : α) : Prop :=
  ∀ memo, Remembers table memo →
    ∃ after, step.run memo = some (value, after) ∧ Remembers table after

section Finds

variable {α β : Type} {table : ContentsTable}

theorem finds_pure (value : α) : Finds table (pure value) value :=
  fun memo remembers => ⟨memo, rfl, remembers⟩

theorem Finds.bind {step : Inference α} {next : α → Inference β} {value : α} {result : β}
    (first : Finds table step value) (others : Finds table (next value) result) :
    Finds table (step >>= next) result := by
  intro memo remembers
  obtain ⟨middle, ran, remembers⟩ := first memo remembers
  obtain ⟨after, ended, remembers⟩ := others middle remembers
  exact ⟨after, by rw [StateT.run_bind, ran]; exact ended, remembers⟩

theorem finds_foldlM {step : β → α → Inference β} {plain : β → α → β} {items : List α}
    (each : ∀ s, ∀ item ∈ items, Finds table (step s item) (plain s item)) (s : β) :
    Finds table (items.foldlM step s) (items.foldl plain s) := by
  induction items generalizing s with
  | nil => exact finds_pure s
  | cons item rest ih =>
    rw [List.foldlM_cons, List.foldl_cons]
    exact (each s item List.mem_cons_self).bind
      (ih (fun s other member => each s other (List.mem_cons_of_mem _ member)) _)

theorem finds_mapM {step : α → Inference β} {plain : α → β} {items : List α}
    (each : ∀ item ∈ items, Finds table (step item) (plain item)) :
    Finds table (items.mapM step) (items.map plain) := by
  induction items with
  | nil => exact finds_pure []
  | cons item rest ih =>
    rw [List.mapM_cons, List.map_cons]
    have others := ih fun other member => each other (List.mem_cons_of_mem _ member)
    exact (each item List.mem_cons_self).bind (others.bind (finds_pure _))

end Finds

section Types

variable {table : ContentsTable} {ofName : String → Inference Contents}

theorem finds_ofElement {element : TypeRef}
    (named : ∀ name, element = .named name → Finds table (ofName name) (table.get name)) :
    Finds table (ofElement ofName element) (table.ofElement element) := by
  cases element with
  | base type => cases type <;> exact finds_pure _
  | named name => exact named name rfl

theorem finds_ofFields {fields : List Field}
    (named : ∀ field ∈ fields, ∀ name, field.type.element = .named name →
      Finds table (ofName name) (table.get name)) :
    Finds table (ofFields ofName fields) (table.ofFields fields) := by
  apply finds_foldlM
  intro found field member
  have inside : Finds table (ofField ofName field) (table.ofField field) := by
    refine (finds_ofElement (named field member)).bind ?_
    rw [ContentsTable.ofField]
    cases field.type.cardinality <;> exact finds_pure _
  exact inside.bind (finds_pure _)

end Types

section Names

variable {schema : Schema} {name : String} {memo : ContentsTable} {depth : Nat}

theorem run_ofName_of_known {contents : Contents} (known : memo.lookup name = some contents) :
    (ofName schema (depth + 1) name).run memo = some (contents, memo) := by
  rw [ofName, StateT.run_bind, StateT.run_get]
  show StateT.run (match memo.lookup name with | some known => _ | none => _) memo = _
  rw [known]
  rfl

theorem run_ofName_of_new {entry : Entry} (new : memo.lookup name = none)
    (declared : schema.find? name = some entry) {contents : Contents} {after : ContentsTable}
    (ran : (ofBody (ofName schema depth) entry.body).run memo = some (contents, after)) :
    (ofName schema (depth + 1) name).run memo = some (contents, (name, contents) :: after) := by
  rw [ofName, StateT.run_bind, StateT.run_get]
  show StateT.run (match memo.lookup name with | some known => _ | none => _) memo = _
  simp only [new, declared]
  rw [StateT.run_bind, ran]
  rfl

theorem Remembers.cons {table : ContentsTable} (remembers : Remembers table memo) (name : String) :
    Remembers table ((name, table.get name) :: memo) := by
  intro other contents known
  rw [List.lookup_cons] at known
  split at known
  · rename_i same
    rw [eq_of_beq same]
    exact (Option.some.inj known).symm
  · exact remembers other contents known

end Names

end Inference

namespace Schema

variable {schema : Schema} {name : String}

theorem find?_of_declares (wellFormed : schema.WellFormed) (declared : schema.Declares name) :
    ∃ entry ∈ schema.entries, entry.name = name ∧ entry.body.isService = false ∧
      schema.find? name = some entry := by
  rcases declared with ⟨entry, member, same, value⟩
  have known : (schema.find? name).isSome := by
    rw [find?, List.find?_isSome]
    exact ⟨entry, member, by simpa using same⟩
  obtain ⟨first, found⟩ := Option.isSome_iff_exists.mp known
  have firstIn := List.mem_of_find?_eq_some found
  have firstSame : first.name = name := by simpa using List.find?_some found
  have unique := entry_unique wellFormed.names_distinct member firstIn entry.name_mem_names
    (same.trans firstSame.symm ▸ first.name_mem_names)
  exact ⟨first, firstIn, firstSame, unique ▸ value, found⟩

/-- Another round finds nothing new in the parts of a struct. -/
theorem ofParts_last (wellFormed : schema.WellFormed) {entry : Entry} {parts : List FieldType}
    (member : entry ∈ schema.entries) (struct : (name, parts) ∈ entry.structs) :
    (schema.contentsAfter schema.entries.length).ofParts parts =
      (ContentsTable.ofSchema schema).ofParts parts := by
  apply Contents.ext_has
  intro what
  rw [ContentsTable.has_ofParts, ContentsTable.has_ofParts, Bool.eq_iff_iff, List.any_eq_true,
    List.any_eq_true]
  refine exists_congr fun part => and_congr_right fun inside => ?_
  exact Bool.eq_iff_iff.mp
    (has_ofPart_last wellFormed what ⟨entry, member, parts, struct, inside⟩)

/-- The contents of a struct are those of its parts. -/
theorem get_ofSchema (wellFormed : schema.WellFormed) {entry : Entry} {parts : List FieldType}
    (member : entry ∈ schema.entries) (struct : (name, parts) ∈ entry.structs) :
    (ContentsTable.ofSchema schema).get name = (ContentsTable.ofSchema schema).ofParts parts :=
  (get_step wellFormed.names_distinct _ member struct).trans (ofParts_last wellFormed member struct)

end Schema

namespace Inference

variable {schema : Schema} {name : String} {depth : Nat}

theorem finds_ofBody (wellFormed : schema.WellFormed) {entry : Entry}
    {ofName : String → Inference Contents} (member : entry ∈ schema.entries)
    (value : entry.body.isService = false)
    (further : ∀ parts, (entry.name, parts) ∈ entry.structs → ∀ part ∈ parts, ∀ target,
      part.element = .named target →
        Finds (.ofSchema schema) (ofName target) ((ContentsTable.ofSchema schema).get target)) :
    Finds (.ofSchema schema) (ofBody ofName entry.body)
      ((ContentsTable.ofSchema schema).get entry.name) := by
  obtain ⟨name, identity, docs, body⟩ := entry
  cases body with
  | message fields =>
    have struct : (name, fields.map Field.type) ∈
        (Entry.mk name identity docs (.message fields)).structs := List.mem_singleton_self _
    rw [Schema.get_ofSchema wellFormed member struct, ← ContentsTable.ofFields_eq_ofParts]
    exact finds_ofFields fun field inside =>
      further _ struct _ (List.mem_map.mpr ⟨field, inside, rfl⟩)
  | «alias» target =>
    have struct : (name, [⟨target, .one⟩]) ∈
        (Entry.mk name identity docs (.alias target)).structs := List.mem_singleton_self _
    rw [Schema.get_ofSchema wellFormed member struct]
    exact finds_ofElement (further _ struct _ (List.mem_singleton_self _))
  | service request reply => cases value

/-- What a name leads to ends earlier than the name itself. -/
theorem finds_ofName (wellFormed : schema.WellFormed) {steps : Nat}
    (declared : schema.Declares name) (ends : schema.EndsWithin steps name)
    (enough : steps < depth) : Finds (.ofSchema schema) (ofName schema depth name)
      ((ContentsTable.ofSchema schema).get name) := by
  induction depth generalizing name steps with
  | zero => exact (Nat.not_lt_zero _ enough).elim
  | succ depth ih =>
    intro memo remembers
    cases new : memo.lookup name with
    | some contents =>
      rw [← remembers name contents new]
      exact ⟨memo, run_ofName_of_known new, remembers⟩
    | none =>
      obtain ⟨entry, member, rfl, value, found⟩ := Schema.find?_of_declares wellFormed declared
      have further (parts) (struct : (entry.name, parts) ∈ entry.structs) (part)
          (inside : part ∈ parts) (target) (element : part.element = .named target) :
          Finds (.ofSchema schema) (ofName schema depth target)
            ((ContentsTable.ofSchema schema).get target) := by
        have leads : schema.LeadsTo entry.name target :=
          ⟨part, ⟨entry, member, parts, struct, inside⟩, element⟩
        obtain ⟨fewer, less, rest⟩ := Schema.endsWithin_next ends leads
        exact ih (Schema.declares_of_leadsTo wellFormed leads) rest (by omega)
      obtain ⟨after, ran, kept⟩ := finds_ofBody wellFormed member value further memo remembers
      exact ⟨_, run_ofName_of_new new found ran, kept.cons _⟩

theorem finds_ofEntry (wellFormed : schema.WellFormed) (enough : schema.entries.length < depth)
    {entry : Entry} (member : entry ∈ schema.entries) :
    Finds (.ofSchema schema) (ofEntry schema depth entry)
      ((schema.contentsAfter schema.entries.length).ofEntry entry) := by
  have named (name : String) (declared : schema.Declares name) : Finds (.ofSchema schema)
      (ofName schema depth name) ((ContentsTable.ofSchema schema).get name) :=
    finds_ofName wellFormed declared (Schema.endsWithin_length wellFormed name) enough
  have listed (pair : String × List Field) (inside : pair ∈ entry.fieldLists) :
      Finds (.ofSchema schema) (ofFields (ofName schema depth) pair.2)
        ((schema.contentsAfter schema.entries.length).ofFields pair.2) := by
    have struct := Entry.struct_of_fieldList inside
    rw [ContentsTable.ofFields_eq_ofParts, Schema.ofParts_last wellFormed member struct,
      ← ContentsTable.ofFields_eq_ofParts]
    apply finds_ofFields
    intro field own target element
    have has : schema.HasPart pair.1 field.type :=
      ⟨entry, member, _, struct, List.mem_map.mpr ⟨field, own, rfl⟩⟩
    exact named target (Schema.declares_of_leadsTo wellFormed ⟨field.type, has, element⟩)
  have own (contents : Contents) (value : entry.body.isService = false)
      (only : (schema.contentsAfter schema.entries.length).ofEntry entry =
        [(entry.name, contents)]) : Finds (.ofSchema schema)
          (do return [(entry.name, ← ofName schema depth entry.name)])
          ((schema.contentsAfter schema.entries.length).ofEntry entry) := by
    have same : (ContentsTable.ofSchema schema).get entry.name = contents :=
      Schema.get_step_eq wellFormed.names_distinct member (only ▸ List.mem_singleton_self _)
    rw [only, ← same]
    exact (named _ ⟨entry, member, rfl, value⟩).bind (finds_pure _)
  obtain ⟨name, identity, docs, body⟩ := entry
  cases body with
  | message fields => exact own _ rfl rfl
  | «alias» target => exact own _ rfl rfl
  | service request reply =>
    show Finds _ (List.mapM _ _) (List.map _ _)
    exact finds_mapM fun pair inside => (listed pair inside).bind (finds_pure _)

theorem finds_ofSchema (wellFormed : schema.WellFormed) (enough : schema.entries.length < depth) :
    Finds (.ofSchema schema) (ofSchema schema depth) (.ofSchema schema) := by
  have entries := finds_mapM fun entry member => finds_ofEntry wellFormed enough member
  have whole : ContentsTable.ofSchema schema =
      (schema.entries.map (schema.contentsAfter schema.entries.length).ofEntry).flatten :=
    List.flatMap_def
  nth_rewrite 2 [whole]
  exact entries.bind (finds_pure _)

end Inference

namespace Schema

/-- The search for cycles never goes deeper than there are entries. On a schema without faults
the inference of contents does not either, and what it finds is what the schema compiles to. -/
theorem recursions_end (schema : Schema) (depth : Nat) (enough : schema.entries.length < depth) :
    schema.cyclesWithin depth = some schema.cycles ∧
    (schema.diagnostics = [] → ∃ table known,
      (Inference.ofSchema schema depth).run [] = some (table, known) ∧
      schema.compile = .ok ⟨schema, table⟩) := by
  refine ⟨cyclesWithin_eq_cycles schema enough, fun clean => ?_⟩
  have wellFormed := diagnostics_eq_nil_iff.mp clean
  have nothing : Inference.Remembers (.ofSchema schema) [] := fun _ _ known => by cases known
  obtain ⟨known, ran, _⟩ := Inference.finds_ofSchema wellFormed enough [] nothing
  refine ⟨_, known, ran, ?_⟩
  rw [compile, clean]

/-- Two aliases in a row below a service that comes before them. -/
theorem recursions_end_chainSchema :
    (CompiledSchema.chainSchema.entries.length < 5 ∧
      CompiledSchema.chainSchema.diagnostics = []) ∧
    CompiledSchema.chainSchema.cyclesWithin 5 = some CompiledSchema.chainSchema.cycles ∧
    (∃ table known,
      (Inference.ofSchema CompiledSchema.chainSchema 5).run [] = some (table, known) ∧
      CompiledSchema.chainSchema.compile = .ok ⟨CompiledSchema.chainSchema, table⟩) := by
  have clean : CompiledSchema.chainSchema.diagnostics = [] := by
    decide +kernel
  have enough : CompiledSchema.chainSchema.entries.length < 5 := by
    decide
  have ends := recursions_end CompiledSchema.chainSchema 5 enough
  exact ⟨⟨enough, clean⟩, ends.1, ends.2 clean⟩

end Schema

end WireSchema
