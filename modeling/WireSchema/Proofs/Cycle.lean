import Mathlib.Tactic
import WireSchema.Schema.Cycle

/-! The search for cycles finds one exactly if the graph has any. -/

namespace WireSchema

/-- Of a chain that ends where it begins, the first name leads back to itself. -/
theorem transGen_of_isChain {r : String → String → Prop} {first last : String}
    {inner : List String} (chain : (first :: inner ++ [last]).IsChain r) :
    Relation.TransGen r first last := by
  induction inner generalizing first with
  | nil => exact .single (List.isChain_pair.mp chain)
  | cons next inner ih =>
    obtain ⟨step, rest⟩ := List.isChain_cons_cons.mp chain
    exact .head step (ih rest)

namespace ReferenceGraph

variable {graph : ReferenceGraph} {path : List String} {name : String} {found : Search}

def Known (graph : ReferenceGraph) (name : String) : Prop :=
  ∃ targets, graph.targets? name = some targets

def Refers (graph : ReferenceGraph) (name target : String) : Prop :=
  ∃ targets, graph.targets? name = some targets ∧ target ∈ targets

def Acyclic (graph : ReferenceGraph) : Prop :=
  ∀ name, ¬ Relation.TransGen graph.Refers name name

theorem known_of_refers {target : String} (refers : graph.Refers name target) :
    graph.Known name := by
  rcases refers with ⟨targets, known, _⟩
  exact ⟨targets, known⟩

theorem known_of_transGen {target : String} (leads : Relation.TransGen graph.Refers name target) :
    graph.Known name := by
  obtain ⟨next, refers, _⟩ := Relation.TransGen.head'_iff.mp leads
  exact known_of_refers refers

section Step

theorem search_of_finished (finished : name ∈ found.finished) :
    graph.search path name found = found := by
  rw [search, if_pos (List.contains_iff_mem.mpr finished)]

theorem search_of_met (unfinished : name ∉ found.finished) (met : name ∈ path) :
    graph.search path name found =
      { found with errors := found.errors ++
          [.recursiveType name (path.dropWhile (· != name) ++ [name])] } := by
  rw [search, if_neg (by simpa using unfinished), dif_pos (List.contains_iff_mem.mpr met)]

theorem search_of_unknown (fresh : name ∉ path) (unknown : graph.targets? name = none) :
    graph.search path name found = found := by
  rw [search]
  split
  · rfl
  · rw [dif_neg (by simpa using fresh)]
    split
    · rfl
    · rename_i known
      rw [unknown] at known
      cases known

theorem search_of_known {targets : List String} (unfinished : name ∉ found.finished)
    (fresh : name ∉ path) (known : graph.targets? name = some targets) :
    graph.search path name found =
      let walked := targets.foldl (fun s target => graph.search (path ++ [name]) target s) found
      { walked with finished := name :: walked.finished } := by
  rw [search, if_neg (by simpa using unfinished), dif_neg (by simpa using fresh)]
  split
  · rename_i unknown
    rw [unknown] at known
    cases known
  · rename_i known'
    rw [known'] at known
    cases known
    rfl

end Step

section Soundness

def Reports (graph : ReferenceGraph) (error : SchemaError) : Prop :=
  ∃ name inner, error = .recursiveType name (name :: inner ++ [name]) ∧
    (name :: inner ++ [name]).IsChain graph.Refers

theorem dropWhile_ne (met : name ∈ path) :
    ∃ before inner, path = before ++ name :: inner ∧
      path.dropWhile (· != name) = name :: inner := by
  obtain ⟨before, inner, rfl, outside⟩ := List.eq_append_cons_of_mem met
  refine ⟨before, inner, rfl, ?_⟩
  rw [List.dropWhile_append_of_pos]
  · simp
  · intro other member
    have differs : other ≠ name := fun same => outside (same ▸ member)
    simpa using differs

theorem reports_foldl {step : Search → String → Search} (names : List String)
    (each : ∀ name ∈ names, ∀ s, ∀ error ∈ (step s name).errors,
      error ∈ s.errors ∨ graph.Reports error) (s : Search) :
    ∀ error ∈ (names.foldl step s).errors, error ∈ s.errors ∨ graph.Reports error := by
  induction names generalizing s with
  | nil =>
    intro error member
    exact .inl member
  | cons name rest ih =>
    intro error member
    rcases ih (fun other later => each other (List.mem_cons_of_mem _ later)) _ error member with
      earlier | reported
    · exact each name List.mem_cons_self s error earlier
    · exact .inr reported

/-- What a search adds to the errors are cycles, if the path follows references up to the name. -/
theorem reports_of_mem_search (chain : (path ++ [name]).IsChain graph.Refers) :
    ∀ error ∈ (graph.search path name found).errors,
      error ∈ found.errors ∨ graph.Reports error := by
  induction path, name, found using search.induct graph with
  | case1 path name found finished =>
    intro error member
    rw [search_of_finished (List.contains_iff_mem.mp finished)] at member
    exact .inl member
  | case2 path name found unfinished met =>
    intro error member
    have met := List.contains_iff_mem.mp met
    rw [search_of_met (by simpa using unfinished) met] at member
    rcases List.mem_append.mp member with earlier | new
    · exact .inl earlier
    · obtain ⟨before, inner, parts, begins⟩ := dropWhile_ne met
      rw [begins] at new
      rw [parts, List.append_assoc] at chain
      exact .inr ⟨name, inner, List.mem_singleton.mp new, chain.right_of_append⟩
  | case3 path name found unfinished fresh unknown =>
    intro error member
    rw [search_of_unknown (by simpa using fresh) unknown] at member
    exact .inl member
  | case4 path name found unfinished fresh targets known ih =>
    rw [search_of_known (by simpa using unfinished) (by simpa using fresh) known]
    apply reports_foldl
    intro target member s error
    have further : (path ++ [name] ++ [target]).IsChain graph.Refers := by
      have refers : graph.Refers name target := ⟨targets, known, member⟩
      apply chain.append (List.isChain_singleton target)
      simpa using refers
    exact ih s target further error

end Soundness

section Completeness

def Mutual (graph : ReferenceGraph) (name other : String) : Prop :=
  Relation.ReflTransGen graph.Refers name other ∧ Relation.ReflTransGen graph.Refers other name

def ReportedAt (errors : List SchemaError) (name : String) : Prop :=
  ∃ path, .recursiveType name path ∈ errors

/-- Names in the order in which they were finished, the last one in front: whatever a name refers to
and the graph knows was finished before it, unless an error tells of a cycle there. -/
def Settled (graph : ReferenceGraph) (errors : List SchemaError) : List String → Prop
  | [] => True
  | name :: rest =>
    (∀ target, graph.Refers name target → graph.Known target →
      target ∈ rest ∨ ReportedAt errors target) ∧ Settled graph errors rest

/-- A cycle of which no error tells could be followed for ever to names finished earlier. -/
theorem Settled.not_transGen {errors : List SchemaError} {names : List String}
    (settled : graph.Settled errors names) (member : name ∈ names)
    (silent : ∀ other, graph.Mutual name other → ¬ ReportedAt errors other) :
    ¬ Relation.TransGen graph.Refers name name := by
  induction names generalizing name with
  | nil => cases member
  | cons first rest ih =>
    intro leads
    rcases List.mem_cons.mp member with rfl | later
    · obtain ⟨next, refers, back⟩ := Relation.TransGen.head'_iff.mp leads
      have around : Relation.TransGen graph.Refers next next := .tail' back refers
      have both : graph.Mutual name next := ⟨.single refers, back⟩
      have earlier : next ∈ rest := by
        rcases settled.1 next refers (known_of_transGen around) with inside | reported
        · exact inside
        · exact absurd reported (silent next both)
      refine ih settled.2 earlier (fun other ways => silent other ?_) around
      exact ⟨both.1.trans ways.1, ways.2.trans both.2⟩
    · exact ih settled.2 later silent leads

structure Walks (graph : ReferenceGraph) (names : List String) (before after : Search) : Prop where
  errors_prefix : before.errors <+: after.errors
  finished_suffix : before.finished <:+ after.finished
  settled : ∀ errors, after.errors ⊆ errors → graph.Settled errors before.finished →
    graph.Settled errors after.finished
  reached : ∀ name ∈ names, graph.Known name →
    name ∈ after.finished ∨ ReportedAt after.errors name

theorem ReportedAt.mono {errors more : List SchemaError} (reported : ReportedAt errors name)
    (subset : errors ⊆ more) : ReportedAt more name := by
  rcases reported with ⟨path, member⟩
  exact ⟨path, subset member⟩

theorem Walks.nil (found : Search) : graph.Walks [] found found where
  errors_prefix := List.prefix_rfl
  finished_suffix := List.suffix_rfl
  settled := fun _ _ settled => settled
  reached := fun _ member => by cases member

theorem Walks.cons {names : List String} {before middle after : Search}
    (first : graph.Walks [name] before middle) (others : graph.Walks names middle after) :
    graph.Walks (name :: names) before after where
  errors_prefix := first.errors_prefix.trans others.errors_prefix
  finished_suffix := first.finished_suffix.trans others.finished_suffix
  settled errors subset settled := by
    have middle := List.Subset.trans others.errors_prefix.subset subset
    exact others.settled errors subset (first.settled errors middle settled)
  reached other member known := by
    rcases List.mem_cons.mp member with rfl | later
    · rcases first.reached _ List.mem_cons_self known with finished | reported
      · exact .inl (others.finished_suffix.subset finished)
      · exact .inr (reported.mono others.errors_prefix.subset)
    · exact others.reached other later known

theorem walks_foldl {step : Search → String → Search}
    (each : ∀ s name, graph.Walks [name] s (step s name)) (names : List String) (s : Search) :
    graph.Walks names s (names.foldl step s) := by
  induction names generalizing s with
  | nil => exact .nil s
  | cons name rest ih => exact (each s name).cons (ih _)

theorem search_walks (path : List String) (name : String) (found : Search) :
    graph.Walks [name] found (graph.search path name found) := by
  induction path, name, found using search.induct graph with
  | case1 path name found finished =>
    have finished := List.contains_iff_mem.mp finished
    rw [search_of_finished finished]
    refine ⟨List.prefix_rfl, List.suffix_rfl, fun _ _ settled => settled, ?_⟩
    intro other member _
    rw [List.mem_singleton.mp member]
    exact .inl finished
  | case2 path name found unfinished met =>
    rw [search_of_met (by simpa using unfinished) (List.contains_iff_mem.mp met)]
    refine ⟨List.prefix_append _ _, List.suffix_rfl, fun _ _ settled => settled, ?_⟩
    intro other member _
    rw [List.mem_singleton.mp member]
    exact .inr ⟨_, List.mem_append_right _ (List.mem_singleton_self _)⟩
  | case3 path name found unfinished fresh unknown =>
    rw [search_of_unknown (by simpa using fresh) unknown]
    refine ⟨List.prefix_rfl, List.suffix_rfl, fun _ _ settled => settled, ?_⟩
    intro other member known
    rcases known with ⟨targets, known⟩
    rw [List.mem_singleton.mp member, unknown] at known
    cases known
  | case4 path name found unfinished fresh targets known ih =>
    have walked := walks_foldl (fun s target => ih s target) targets found
    rw [search_of_known (by simpa using unfinished) (by simpa using fresh) known]
    refine ⟨walked.errors_prefix, walked.finished_suffix.trans (List.suffix_cons _ _), ?_, ?_⟩
    · -- The name is finished last, when all that it refers to has been reached.
      intro errors subset settled
      refine ⟨fun target refers targetKnown => ?_, walked.settled errors subset settled⟩
      rcases refers with ⟨targets', known', member⟩
      rw [known] at known'
      cases known'
      rcases walked.reached target member targetKnown with finished | reported
      · exact .inl finished
      · exact .inr (reported.mono subset)
    · intro other member _
      rw [List.mem_singleton.mp member]
      exact .inl List.mem_cons_self

end Completeness

section All

variable {names : List String}

def searchAll (graph : ReferenceGraph) (names : List String) : Search :=
  names.foldl (fun s name => graph.search [] name s) ⟨[], []⟩

theorem reports_of_mem_searchAll : ∀ error ∈ (graph.searchAll names).errors,
    graph.Reports error := by
  intro error member
  have start (name : String) : ([] ++ [name]).IsChain graph.Refers := List.isChain_singleton name
  rcases reports_foldl names (fun name _ s => reports_of_mem_search (start name)) _ error member
    with earlier | reported
  · cases earlier
  · exact reported

/-- Searched from every name that it knows, a graph gives an error for each group of names that
lead to one another. -/
theorem exists_reportedAt (all : ∀ name, graph.Known name → name ∈ names)
    (leads : Relation.TransGen graph.Refers name name) :
    ∃ other, graph.Mutual name other ∧ ReportedAt (graph.searchAll names).errors other := by
  by_contra silent
  simp only [not_exists, not_and] at silent
  have walked : graph.Walks names ⟨[], []⟩ (graph.searchAll names) :=
    walks_foldl (fun s name => search_walks [] name s) names ⟨[], []⟩
  have settled := walked.settled _ (List.Subset.refl _) trivial
  have known := known_of_transGen leads
  rcases walked.reached name (all name known) known with finished | reported
  · exact settled.not_transGen finished silent leads
  · exact silent name ⟨.refl, .refl⟩ reported

/-- Searched from every name that it knows, a graph is without errors exactly if it is acyclic. -/
theorem errors_searchAll_eq_nil_iff (all : ∀ name, graph.Known name → name ∈ names) :
    (graph.searchAll names).errors = [] ↔ graph.Acyclic := by
  constructor
  · intro clean name leads
    obtain ⟨other, _, path, member⟩ := exists_reportedAt all leads
    rw [clean] at member
    cases member
  · intro acyclic
    apply List.eq_nil_iff_forall_not_mem.mpr
    intro error member
    obtain ⟨name, inner, _, chain⟩ := reports_of_mem_searchAll error member
    exact acyclic name (transGen_of_isChain chain)

end All

end ReferenceGraph

end WireSchema
