import WireSchema.Proofs.WellFormed

/-! The errors about recursion, said of the schema. -/

namespace WireSchema

namespace ReferenceGraph

variable {graph : ReferenceGraph} {path names : List String} {name : String} {found : Search}

section Order

/-- The error tells of a cycle whose members stand in this order among `names`. -/
def Among (names : List String) (error : SchemaError) : Prop :=
  ∃ name inner, error = .recursiveType name (name :: inner ++ [name]) ∧
    (name :: inner).Sublist names

theorem Among.mono {more : List String} {error : SchemaError} (among : Among names error)
    (sub : names.Sublist more) : Among more error := by
  rcases among with ⟨name, inner, same, inside⟩
  exact ⟨name, inner, same, inside.trans sub⟩

/-- No name stands twice on the way or among the finished ones, and the errors tell of cycles in the
order of both. -/
structure Ordered (path : List String) (found : Search) : Prop where
  distinct : (path ++ found.finished).Nodup
  among : ∀ error ∈ found.errors, Among (path ++ found.finished) error

theorem Ordered.enter (ordered : Ordered path found) (fresh : name ∉ path)
    (unfinished : name ∉ found.finished) : Ordered (path ++ [name]) found := by
  have shape : path ++ [name] ++ found.finished = path ++ name :: found.finished := by simp
  constructor
  · rw [shape, List.nodup_middle]
    exact List.nodup_cons.mpr ⟨by simp [fresh, unfinished], ordered.distinct⟩
  · intro error member
    rw [shape]
    exact (ordered.among error member).mono ((List.sublist_cons_self _ _).append_left path)

/-- The last name of the way becomes the last one that was finished. -/
theorem Ordered.leave (ordered : Ordered (path ++ [name]) found) :
    Ordered path { found with finished := name :: found.finished } := by
  have shape : path ++ [name] ++ found.finished = path ++ name :: found.finished := by simp
  constructor
  · exact shape ▸ ordered.distinct
  · intro error member
    exact shape ▸ ordered.among error member

theorem Ordered.met (ordered : Ordered path found) (met : name ∈ path) :
    Ordered path { found with errors := found.errors ++
      [.recursiveType name (path.dropWhile (· != name) ++ [name])] } := by
  refine ⟨ordered.distinct, fun error member => ?_⟩
  rcases List.mem_append.mp member with earlier | new
  · exact ordered.among error earlier
  · obtain ⟨before, inner, parts, begins⟩ := dropWhile_ne met
    rw [begins] at new
    refine ⟨name, inner, List.mem_singleton.mp new, ?_⟩
    rw [parts, List.append_assoc]
    exact (List.sublist_append_left _ _).trans (List.sublist_append_right _ _)

theorem search_ordered (ordered : Ordered path found) :
    Ordered path (graph.search path name found) := by
  induction path, name, found using search.induct graph with
  | case1 path name found finished =>
    rw [search_of_finished (List.contains_iff_mem.mp finished)]
    exact ordered
  | case2 path name found unfinished met =>
    have met := List.contains_iff_mem.mp met
    rw [search_of_met (by simpa using unfinished) met]
    exact ordered.met met
  | case3 path name found unfinished fresh unknown =>
    rw [search_of_unknown (by simpa using fresh) unknown]
    exact ordered
  | case4 path name found unfinished fresh targets known ih =>
    have unfinished : name ∉ found.finished := by simpa using unfinished
    have fresh : name ∉ path := by simpa using fresh
    rw [search_of_known unfinished fresh known]
    apply Ordered.leave
    exact List.foldlRecOn targets _ (ordered.enter fresh unfinished) fun s kept target _ =>
      ih s target kept

theorem ordered_start : Ordered [] ⟨[], []⟩ := ⟨.nil, fun _ member => by cases member⟩

theorem searchAll_ordered : Ordered [] (graph.searchAll names) :=
  List.foldlRecOn names _ ordered_start fun _ kept _ _ => search_ordered kept

theorem nodup_finished (graph : ReferenceGraph) (names : List String) :
    (graph.searchAll names).finished.Nodup :=
  searchAll_ordered.distinct

/-- What the search for cycles reports, all in all. -/
theorem cycle_of_mem_searchAll {error : SchemaError}
    (member : error ∈ (graph.searchAll names).errors) :
    ∃ name inner, error = .recursiveType name (name :: inner ++ [name]) ∧
      (name :: inner ++ [name]).IsChain graph.Refers ∧
      (name :: inner).Sublist (graph.searchAll names).finished := by
  obtain ⟨name, inner, rfl, chain⟩ := reports_of_mem_searchAll error member
  obtain ⟨_, _, told, sub⟩ := searchAll_ordered.among _ member
  obtain ⟨rfl, path⟩ := SchemaError.recursiveType.inj told
  rw [← List.append_cancel_right path] at sub
  exact ⟨name, inner, rfl, chain, sub⟩

end Order

theorem mutual_of_mem_cycle {inner : List String}
    (chain : (name :: inner ++ [name]).IsChain graph.Refers) :
    ∀ member ∈ name :: inner ++ [name], graph.Mutual name member := by
  intro member inside
  have ways : (name :: inner ++ [name]).Pairwise (Relation.ReflTransGen graph.Refers) :=
    (chain.imp fun _ _ => Relation.ReflTransGen.single).pairwise
  obtain ⟨before, after, parts⟩ := List.append_of_mem inside
  constructor
  · rcases List.mem_cons.mp inside with rfl | later
    · exact .refl
    · exact List.rel_of_pairwise_cons ways later
  · rcases List.mem_append.mp inside with earlier | last
    · exact (List.pairwise_append.mp ways).2.2 member earlier name (List.mem_singleton_self _)
    · rw [List.mem_singleton.mp last]

end ReferenceGraph

namespace SchemaError

def isRecursive : SchemaError → Bool
  | .recursiveType .. => true
  | _ => false

end SchemaError

namespace Schema

variable {schema : Schema}

section Diagnostics

open SchemaError (isRecursive)

theorem filter_nameErrors (earlier names : List String) :
    (nameErrors earlier names).filter isRecursive = [] := by
  induction names generalizing earlier with
  | nil => rfl
  | cons name rest ih =>
    rw [nameErrors, List.filter_append, List.filter_append, ih]
    split <;> split <;> rfl

theorem filter_entryErrors (earlier : List String) (entries : List Entry) :
    (entryErrors earlier entries).filter isRecursive = [] := by
  induction entries generalizing earlier with
  | nil => rfl
  | cons entry rest ih =>
    rw [entryErrors, List.filter_append, List.filter_append, List.filter_append, ih,
      filter_nameErrors]
    split <;> split <;> rfl

theorem filter_referenceErrors (site : Site) (element : TypeRef) :
    (schema.referenceErrors site element).filter isRecursive = [] := by
  cases element with
  | base type => rfl
  | named name =>
    rw [referenceErrors]
    split <;> rfl

theorem filter_fieldErrors (owner : String) (earlier : List String) (fields : List Field) :
    (schema.fieldErrors owner earlier fields).filter isRecursive = [] := by
  induction fields generalizing earlier with
  | nil => rfl
  | cons field rest ih =>
    rw [fieldErrors, List.filter_append, List.filter_append, List.filter_append,
      List.filter_append, ih, filter_referenceErrors]
    split <;> split <;> split <;> rfl

theorem filter_bodyErrors (entry : Entry) :
    (schema.bodyErrors entry).filter isRecursive = [] := by
  rw [bodyErrors]
  split
  · exact filter_referenceErrors _ _
  all_goals
    rw [List.filter_flatMap]
    exact List.flatMap_eq_nil_iff.mpr fun pair _ => filter_fieldErrors pair.1 [] pair.2

theorem filter_bodies (entries : List Entry) :
    (entries.flatMap schema.bodyErrors).filter isRecursive = [] := by
  rw [List.filter_flatMap]
  exact List.flatMap_eq_nil_iff.mpr fun entry _ => filter_bodyErrors entry

theorem reports_of_mem_cycles {error : SchemaError} (member : error ∈ schema.cycles) :
    (ReferenceGraph.ofSchema schema).Reports error := by
  rw [cycles_eq_errors] at member
  exact ReferenceGraph.reports_of_mem_searchAll error member

/-- Recursion is found by the search for cycles only. -/
theorem filter_diagnostics : schema.diagnostics.filter isRecursive = schema.cycles := by
  have all : schema.cycles.filter isRecursive = schema.cycles := by
    apply List.filter_eq_self.mpr
    intro error member
    obtain ⟨name, inner, rfl, _⟩ := reports_of_mem_cycles member
    rfl
  rw [diagnostics, List.filter_append, List.filter_append, filter_entryErrors, filter_bodies, all]
  rfl

theorem recursiveType_mem_diagnostics {name : String} {path : List String} :
    .recursiveType name path ∈ schema.diagnostics ↔ .recursiveType name path ∈ schema.cycles := by
  rw [← filter_diagnostics, List.mem_filter]
  exact (and_iff_left rfl).symm

end Diagnostics

def SameGroup (schema : Schema) (name other : String) : Prop :=
  Relation.ReflTransGen schema.RefersTo name other ∧
    Relation.ReflTransGen schema.RefersTo other name

theorem map_fst_ofSchema_sublist_entries :
    ((ReferenceGraph.ofSchema schema).map Prod.fst).Sublist (schema.entries.map Entry.name) := by
  rw [ReferenceGraph.ofSchema]
  induction schema.entries with
  | nil => exact .slnil
  | cons entry rest ih =>
    rw [List.filterMap_cons, List.map_cons]
    cases entry.body.isService
    · exact ih.cons_cons entry.name
    · exact ih.cons entry.name

theorem declares_of_leads {name other : String}
    (leads : Relation.TransGen schema.RefersTo name other) : schema.Declares name := by
  obtain ⟨next, refers, _⟩ := Relation.TransGen.head'_iff.mp leads
  rcases refers with ⟨entry, inside, same, value, _⟩
  exact ⟨entry, inside, same, value⟩

section Reported

variable (distinct : (schema.entries.map Entry.name).Nodup)
include distinct

theorem refers_ofSchema_entries : (ReferenceGraph.ofSchema schema).Refers = schema.RefersTo :=
  refers_ofSchema (distinct.sublist map_fst_ofSchema_sublist_entries)

theorem cycle_of_mem_diagnostics {name : String} {path : List String}
    (member : .recursiveType name path ∈ schema.diagnostics) :
    ∃ inner, path = name :: inner ++ [name] ∧ (name :: inner).Nodup ∧
      path.IsChain schema.RefersTo := by
  rw [recursiveType_mem_diagnostics, cycles_eq_errors] at member
  obtain ⟨_, inner, told, chain, sub⟩ := ReferenceGraph.cycle_of_mem_searchAll member
  obtain ⟨rfl, rfl⟩ := SchemaError.recursiveType.inj told
  rw [refers_ofSchema_entries distinct] at chain
  exact ⟨inner, rfl, (ReferenceGraph.nodup_finished _ _).sublist sub, chain⟩

theorem declares_of_mem_cycle {name : String} {inner : List String}
    (chain : (name :: inner ++ [name]).IsChain schema.RefersTo) :
    ∀ member ∈ name :: inner ++ [name], schema.Declares member := by
  have around := transGen_of_isChain chain
  rw [← refers_ofSchema_entries distinct] at chain
  intro member inside
  obtain ⟨there, back⟩ := ReferenceGraph.mutual_of_mem_cycle chain member inside
  rw [refers_ofSchema_entries distinct] at there back
  exact declares_of_leads (.trans_right back (around.trans_left there))

theorem exists_cycle_of_leads {name : String}
    (leads : Relation.TransGen schema.RefersTo name name) :
    ∃ start path, .recursiveType start path ∈ schema.diagnostics ∧
      ∀ member ∈ path, schema.SameGroup name member := by
  rw [← refers_ofSchema_entries distinct] at leads
  obtain ⟨start, both, path, member⟩ :=
    ReferenceGraph.exists_reportedAt (fun _ known => mem_names_of_known known) leads
  obtain ⟨_, inner, told, chain, _⟩ := ReferenceGraph.cycle_of_mem_searchAll member
  obtain ⟨rfl, rfl⟩ := SchemaError.recursiveType.inj told
  rw [← cycles_eq_errors, ← recursiveType_mem_diagnostics] at member
  refine ⟨_, _, member, fun other inside => ?_⟩
  obtain ⟨there, back⟩ := ReferenceGraph.mutual_of_mem_cycle chain other inside
  rw [SameGroup, ← refers_ofSchema_entries distinct]
  exact ⟨both.1.trans there, back.trans both.2⟩

end Reported

/-- An error about recursion tells of a cycle of declared types that meets none of them twice. Every
group of types that contain one another has an error that stays inside the group, and without such a
group there is no error. -/
theorem recursion_reported (schema : Schema)
    (distinct : (schema.entries.map Entry.name).Nodup) :
    (∀ name path, .recursiveType name path ∈ schema.diagnostics →
      ∃ inner, path = name :: inner ++ [name] ∧ (name :: inner).Nodup ∧
        path.IsChain schema.RefersTo ∧ ∀ member ∈ path, schema.Declares member) ∧
    (∀ name, Relation.TransGen schema.RefersTo name name →
      ∃ start path, .recursiveType start path ∈ schema.diagnostics ∧
        ∀ member ∈ path, schema.SameGroup name member) ∧
    ((∀ name, ¬ Relation.TransGen schema.RefersTo name name) →
      ∀ name path, .recursiveType name path ∉ schema.diagnostics) := by
  refine ⟨fun name path member => ?_, fun name leads => ?_, fun acyclic name path member => ?_⟩
  · obtain ⟨inner, rfl, simple, chain⟩ := cycle_of_mem_diagnostics distinct member
    exact ⟨inner, rfl, simple, chain, declares_of_mem_cycle distinct chain⟩
  · exact exists_cycle_of_leads distinct leads
  · obtain ⟨inner, rfl, _, chain⟩ := cycle_of_mem_diagnostics distinct member
    exact acyclic name (transGen_of_isChain chain)

/-- A list of lists, which contain it, and beside them a tree, which both refer to. -/
def groupsSchema : Schema :=
  ⟨[⟨"Forest", ⟨"demo/Forest", "1"⟩, [],
      .message [⟨"trees", ⟨.named "Tree", .sequence⟩, []⟩, ⟨"next", ⟨.named "More", .one⟩, []⟩]⟩,
    ⟨"Tree", ⟨"demo/Tree", "2"⟩, [],
      .message [⟨"left", ⟨.named "Tree", .sequence⟩, []⟩, ⟨"key", ⟨.base .string, .one⟩, []⟩]⟩,
    ⟨"More", ⟨"demo/More", "3"⟩, [], .alias (.named "Forest")⟩]⟩

theorem recursion_reported_groupsSchema :
    (groupsSchema.entries.map Entry.name).Nodup ∧
    (∃ start path, .recursiveType start path ∈ groupsSchema.diagnostics ∧
      ∀ member ∈ path, groupsSchema.SameGroup "More" member) ∧
    (∃ start path, .recursiveType start path ∈ groupsSchema.diagnostics ∧
      ∀ member ∈ path, groupsSchema.SameGroup "Tree" member) ∧
    ∃ inner, ["Forest", "More", "Forest"] = "Forest" :: inner ++ ["Forest"] ∧
      ("Forest" :: inner).Nodup ∧
      ["Forest", "More", "Forest"].IsChain groupsSchema.RefersTo ∧
      ∀ member ∈ ["Forest", "More", "Forest"], groupsSchema.Declares member := by
  have distinct : (groupsSchema.entries.map Entry.name).Nodup := by
    decide
  have told : .recursiveType "Forest" ["Forest", "More", "Forest"] ∈ groupsSchema.diagnostics := by
    decide +kernel
  have step : groupsSchema.RefersTo "More" "Forest" ∧ groupsSchema.RefersTo "Forest" "More" ∧
      groupsSchema.RefersTo "Tree" "Tree" := by
    simp [groupsSchema, RefersTo, Body.elements, Body.isService]
  obtain ⟨cycle, group, _⟩ := recursion_reported groupsSchema distinct
  exact ⟨distinct, group "More" (.tail (.single step.1) step.2.1), group "Tree" (.single step.2.2),
    cycle _ _ told⟩

end Schema

end WireSchema
