import WireSchema.Proofs.Cycle

/-! A search finds the cycles that its name leads to and no earlier name did. -/

namespace WireSchema.ReferenceGraph

variable {graph : ReferenceGraph} {path names : List String} {name : String} {found : Search}

theorem known_of_leads {target : String} (leads : Relation.ReflTransGen graph.Refers name target)
    (known : graph.Known target) : graph.Known name := by
  rcases Relation.ReflTransGen.cases_head leads with rfl | ⟨_, refers, _⟩
  · exact known
  · exact known_of_refers refers

section Closed

/-- Whatever a finished name refers to is finished as well, or on the way. -/
def Closed (graph : ReferenceGraph) (path finished : List String) : Prop :=
  ∀ name ∈ finished, ∀ target, graph.Refers name target → graph.Known target →
    target ∈ finished ∨ target ∈ path

theorem finished_subset_search (path : List String) (name : String) (found : Search) :
    found.finished ⊆ (graph.search path name found).finished :=
  (search_walks path name found).finished_suffix.subset

theorem finished_subset_foldl (path targets : List String) (found : Search) :
    found.finished ⊆
      (targets.foldl (fun s target => graph.search path target s) found).finished :=
  (walks_foldl (fun s target => search_walks path target s) targets found).finished_suffix.subset

theorem closed_foldl {targets : List String} (closed : graph.Closed path found.finished)
    (each : ∀ s target, graph.Closed path s.finished →
      graph.Closed path (graph.search path target s).finished ∧
        (graph.Known target → target ∈ (graph.search path target s).finished ∨ target ∈ path)) :
    graph.Closed path
        (targets.foldl (fun s target => graph.search path target s) found).finished ∧
      ∀ target ∈ targets, graph.Known target →
        target ∈ (targets.foldl (fun s target => graph.search path target s) found).finished ∨
          target ∈ path := by
  induction targets generalizing found with
  | nil => exact ⟨closed, List.forall_mem_nil _⟩
  | cons first rest ih =>
    obtain ⟨next, reached⟩ := each found first closed
    obtain ⟨last, others⟩ := ih next
    refine ⟨last, fun target member known => ?_⟩
    rcases List.mem_cons.mp member with rfl | later
    · exact (reached known).imp_left fun finished => finished_subset_foldl path rest _ finished
    · exact others target later known

theorem search_closed (closed : graph.Closed path found.finished) :
    graph.Closed path (graph.search path name found).finished ∧
      (graph.Known name → name ∈ (graph.search path name found).finished ∨ name ∈ path) := by
  induction path, name, found using search.induct graph with
  | case1 path name found finished =>
    have finished := List.contains_iff_mem.mp finished
    rw [search_of_finished finished]
    exact ⟨closed, fun _ => .inl finished⟩
  | case2 path name found unfinished met =>
    have met := List.contains_iff_mem.mp met
    rw [search_of_met (by simpa using unfinished) met]
    exact ⟨closed, fun _ => .inr met⟩
  | case3 path name found unfinished fresh unknown =>
    rw [search_of_unknown (by simpa using fresh) unknown]
    refine ⟨closed, fun known => ?_⟩
    rcases known with ⟨targets, known⟩
    rw [unknown] at known
    cases known
  | case4 path name found unfinished fresh targets known ih =>
    have entered : graph.Closed (path ++ [name]) found.finished := fun other member target refers
        known => (closed other member target refers known).imp_right (List.mem_append_left _)
    obtain ⟨walked, reached⟩ := closed_foldl entered fun s target => ih s target
    rw [search_of_known (by simpa using unfinished) (by simpa using fresh) known]
    -- The name leaves the way and is finished, so nothing on the way is lost.
    have moved {other finished} (there : other ∈ finished ∨ other ∈ path ++ [name]) :
        other ∈ name :: finished ∨ other ∈ path := by
      simp only [List.mem_append, List.mem_singleton] at there
      rw [List.mem_cons]
      tauto
    refine ⟨fun other member target refers targetKnown => ?_, fun _ => .inl List.mem_cons_self⟩
    rcases List.mem_cons.mp member with rfl | earlier
    · rcases refers with ⟨targets', known', listed⟩
      cases known.symm.trans known'
      exact moved (reached target listed targetKnown)
    · exact moved (walked other earlier target refers targetKnown)

/-- Between two searches nothing is on the way. -/
theorem Closed.mem_of_leads {finished : List String} (closed : graph.Closed [] finished)
    {target : String} (member : name ∈ finished)
    (leads : Relation.ReflTransGen graph.Refers name target) (known : graph.Known target) :
    target ∈ finished := by
  induction leads using Relation.ReflTransGen.head_induction_on with
  | refl => exact member
  | head refers leads ih =>
    rename_i name next
    have finished := closed name member next refers (known_of_leads leads known)
    exact ih (finished.resolve_right List.not_mem_nil)

end Closed

section News

/-- An error about a cycle to which `leads` holds and of which no member was finished. -/
def News (graph : ReferenceGraph) (finished : List String) (leads : String → Prop)
    (error : SchemaError) : Prop :=
  ∃ name way, error = .recursiveType name way ∧ graph.Known name ∧ name ∉ finished ∧ leads name

theorem foldl_adds {targets : List String} {leads : String → Prop}
    (each : ∀ s, ∀ target ∈ targets, ∃ new, (graph.search path target s).errors = s.errors ++ new ∧
      ∀ error ∈ new, graph.News s.finished leads error) (found : Search) :
    ∃ new, (targets.foldl (fun s target => graph.search path target s) found).errors =
        found.errors ++ new ∧
      ∀ error ∈ new, graph.News found.finished leads error := by
  induction targets generalizing found with
  | nil => exact ⟨[], by simp, List.forall_mem_nil _⟩
  | cons first rest ih =>
    obtain ⟨new, same, newly⟩ := each found first List.mem_cons_self
    obtain ⟨more, same', newly'⟩ :=
      ih (fun s target member => each s target (List.mem_cons_of_mem _ member))
        (graph.search path first found)
    refine ⟨new ++ more, by rw [List.foldl_cons, same', same, List.append_assoc], ?_⟩
    intro error member
    rcases List.mem_append.mp member with earlier | later
    · exact newly error earlier
    · obtain ⟨name, way, told, known, unfinished, leads⟩ := newly' error later
      exact ⟨name, way, told, known,
        fun finished => unfinished (finished_subset_search _ _ _ finished), leads⟩

/-- A search adds errors about cycles that the name leads to, or the way. -/
theorem search_adds (known : ∀ other ∈ path, graph.Known other) :
    ∃ new, (graph.search path name found).errors = found.errors ++ new ∧
      ∀ error ∈ new, graph.News found.finished
        (fun other => other ∈ path ∨ Relation.ReflTransGen graph.Refers name other) error := by
  induction path, name, found using search.induct graph with
  | case1 path name found finished =>
    rw [search_of_finished (List.contains_iff_mem.mp finished)]
    exact ⟨[], by simp, List.forall_mem_nil _⟩
  | case2 path name found unfinished met =>
    have met := List.contains_iff_mem.mp met
    have unfinished : name ∉ found.finished := by simpa using unfinished
    rw [search_of_met unfinished met]
    refine ⟨_, rfl, fun error member => ?_⟩
    exact ⟨name, _, List.mem_singleton.mp member, known name met, unfinished, .inl met⟩
  | case3 path name found unfinished fresh unknown =>
    rw [search_of_unknown (by simpa using fresh) unknown]
    exact ⟨[], by simp, List.forall_mem_nil _⟩
  | case4 path name found unfinished fresh targets own ih =>
    rw [search_of_known (by simpa using unfinished) (by simpa using fresh) own]
    have entered : ∀ other ∈ path ++ [name], graph.Known other := by
      rw [List.forall_mem_append, List.forall_mem_singleton]
      exact ⟨known, targets, own⟩
    apply foldl_adds
    intro s target member
    obtain ⟨new, same, newly⟩ := ih s target entered
    refine ⟨new, same, fun error inside => ?_⟩
    obtain ⟨other, way, told, otherKnown, outside, leads⟩ := newly error inside
    refine ⟨other, way, told, otherKnown, outside, ?_⟩
    have refers : graph.Refers name target := ⟨targets, own, member⟩
    rw [List.mem_append, List.mem_singleton] at leads
    rcases leads with (above | rfl) | further
    · exact .inl above
    · exact .inr .refl
    · exact .inr (.head refers further)

end News

end WireSchema.ReferenceGraph
