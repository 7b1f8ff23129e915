import WireSchema.Proofs.Recursion

/-! A cycle is reported once for each reference from its last member to its first. -/

namespace WireSchema

namespace ReferenceGraph

variable {graph : ReferenceGraph} {path front : List String} {name first last : String}
  {found : Search}

def closing (path : List String) (name : String) : SchemaError :=
  .recursiveType name (path.dropWhile (· != name) ++ [name])

theorem closing_concat (met : name ∈ path ++ [last]) :
    ∃ front, closing (path ++ [last]) name = .recursiveType name (front ++ [last, name]) := by
  obtain ⟨before, inner, parts, begins⟩ := dropWhile_ne met
  rw [closing, begins]
  rcases List.eq_nil_or_concat' (name :: inner) with empty | ⟨front, final, shape⟩
  · cases empty
  · rw [shape, ← List.append_assoc] at parts
    obtain ⟨_, same⟩ := List.append_inj' parts rfl
    cases same
    exact ⟨front, by simp [shape]⟩

theorem last_eq_of_told {other : List String} {start final : String}
    (told : SchemaError.recursiveType first (front ++ [last, first]) =
      .recursiveType start (other ++ [final, start])) : last = final := by
  obtain ⟨_, same⟩ := SchemaError.recursiveType.inj told
  obtain ⟨_, same⟩ := List.append_inj' same rfl
  exact (List.cons.inj same).1

theorem last_mem_of_among {names : List String}
    (among : Among names (.recursiveType first (front ++ [last, first]))) : last ∈ names := by
  obtain ⟨_, inner, told, sub⟩ := among
  obtain ⟨rfl, same⟩ := SchemaError.recursiveType.inj told
  have closed : front ++ [last] ++ [first] = first :: inner ++ [first] := by
    simpa using same
  rw [← List.append_cancel_right closed] at sub
  exact sub.subset (by simp)

/-- While a name is on the way, the only cycle closed by it is the one just met at its end. -/
theorem count_search_of_mem (ordered : Ordered path found) (inside : last ∈ path) :
    (graph.search path name found).errors.count (.recursiveType first (front ++ [last, first])) =
      found.errors.count (.recursiveType first (front ++ [last, first])) +
        if name ∈ path ∧ .recursiveType first (front ++ [last, first]) = closing path name
        then 1 else 0 := by
  induction path, name, found using search.induct graph with
  | case1 path name found finished =>
    have finished := List.contains_iff_mem.mp finished
    have outside : name ∉ path := fun met =>
      List.disjoint_of_nodup_append ordered.distinct met finished
    simp [search_of_finished finished, outside]
  | case2 path name found unfinished met =>
    have met := List.contains_iff_mem.mp met
    rw [search_of_met (by simpa using unfinished) met]
    rw [List.count_append, List.count_singleton]
    congr 1
    exact if_congr (by rw [beq_iff_eq, eq_comm, closing, and_iff_right met]) rfl rfl
  | case3 path name found unfinished fresh unknown =>
    have fresh : name ∉ path := by simpa using fresh
    simp [search_of_unknown fresh unknown, fresh]
  | case4 path name found unfinished fresh targets known ih =>
    have unfinished : name ∉ found.finished := by simpa using unfinished
    have fresh : name ∉ path := by simpa using fresh
    rw [search_of_known unfinished fresh known, if_neg (fun met => fresh met.1), Nat.add_zero]
    have other (target : String) (met : target ∈ path ++ [name]) :
        .recursiveType first (front ++ [last, first]) ≠ closing (path ++ [name]) target := by
      intro told
      obtain ⟨_, shape⟩ := closing_concat met
      exact fresh (last_eq_of_told (told.trans shape) ▸ inside)
    -- Further on the way, cycles are closed by the names that come after this one.
    have walked := List.foldlRecOn (motive := fun s => Ordered (path ++ [name]) s ∧
        s.errors.count (.recursiveType first (front ++ [last, first])) =
          found.errors.count (.recursiveType first (front ++ [last, first])))
      targets (fun s target => graph.search (path ++ [name]) target s)
      ⟨ordered.enter fresh unfinished, rfl⟩ fun s kept target _ => by
        refine ⟨search_ordered kept.1, ?_⟩
        rw [ih s target kept.1 (List.mem_append_left _ inside),
          if_neg (fun met => other target met.1 met.2), Nat.add_zero, kept.2]
    exact walked.2

/-- What a name refers to closes its cycle anew each time it is met. -/
theorem count_foldl {targets : List String} (ordered : Ordered (path ++ [last]) found) :
    (targets.foldl (fun s target => graph.search (path ++ [last]) target s) found).errors.count
        (.recursiveType first (front ++ [last, first])) =
      found.errors.count (.recursiveType first (front ++ [last, first])) +
        if first ∈ path ++ [last] ∧
          .recursiveType first (front ++ [last, first]) = closing (path ++ [last]) first
        then targets.count first else 0 := by
  induction targets generalizing found with
  | nil => simp
  | cons target rest ih =>
    rw [List.foldl_cons, ih (search_ordered ordered), count_search_of_mem ordered (by simp)]
    by_cases same : target = first
    · subst same
      rw [List.count_cons_self]
      split <;> omega
    · have other : ¬ (target ∈ path ++ [last] ∧
          .recursiveType first (front ++ [last, first]) = closing (path ++ [last]) target) :=
        fun told => same (SchemaError.recursiveType.inj told.2).1.symm
      rw [if_neg other, List.count_cons_of_ne same, Nat.add_zero]

/-- A cycle closed by a name that is not on the way any more was told for each of its references. -/
def Counted (graph : ReferenceGraph) (path : List String) (found : Search) : Prop :=
  ∀ first front last targets, .recursiveType first (front ++ [last, first]) ∈ found.errors →
    last ∉ path → graph.targets? last = some targets →
    found.errors.count (.recursiveType first (front ++ [last, first])) = targets.count first

theorem Counted.met (counted : graph.Counted path found) (met : name ∈ path) :
    graph.Counted path { found with errors := found.errors ++ [closing path name] } := by
  intro first front last targets member outside known
  have other : closing path name ≠ .recursiveType first (front ++ [last, first]) := by
    rcases List.eq_nil_or_concat' path with rfl | ⟨path, final, rfl⟩
    · cases met
    · intro told
      obtain ⟨_, shape⟩ := closing_concat met
      rw [last_eq_of_told (told.symm.trans shape)] at outside
      simp at outside
  rcases List.mem_append.mp member with earlier | new
  · rw [List.count_append, List.count_singleton, if_neg (by simpa using other), Nat.add_zero]
    exact counted first front last targets earlier outside known
  · exact absurd (List.mem_singleton.mp new).symm other

theorem search_counted (ordered : Ordered path found) (counted : graph.Counted path found) :
    graph.Counted path (graph.search path name found) := by
  induction path, name, found using search.induct graph with
  | case1 path name found finished =>
    rw [search_of_finished (List.contains_iff_mem.mp finished)]
    exact counted
  | case2 path name found unfinished met =>
    have met := List.contains_iff_mem.mp met
    rw [search_of_met (by simpa using unfinished) met]
    exact counted.met met
  | case3 path name found unfinished fresh unknown =>
    rw [search_of_unknown (by simpa using fresh) unknown]
    exact counted
  | case4 path name found unfinished fresh targets known ih =>
    have unfinished : name ∉ found.finished := by simpa using unfinished
    have fresh : name ∉ path := by simpa using fresh
    have entered := ordered.enter fresh unfinished
    have walked := List.foldlRecOn (motive := fun s => Ordered (path ++ [name]) s ∧
        graph.Counted (path ++ [name]) s)
      targets (fun s target => graph.search (path ++ [name]) target s)
      ⟨entered, fun first front last targets member outside =>
        counted first front last targets member fun inside =>
          outside (List.mem_append_left _ inside)⟩
      fun s kept target _ => ⟨search_ordered kept.1, ih s target kept.1 kept.2⟩
    rw [search_of_known unfinished fresh known]
    intro first front last targets' member outside known'
    by_cases same : last = name
    · -- The name has left the way just now, and all its references were walked on the way.
      subst same
      rw [known] at known'
      cases known'
      have unheard : .recursiveType first (front ++ [last, first]) ∉ found.errors := fun told => by
        have inside := last_mem_of_among (ordered.among _ told)
        simp [fresh, unfinished] at inside
      have times : (targets.foldl (fun s target => graph.search (path ++ [last]) target s)
          found).errors.count (.recursiveType first (front ++ [last, first])) = _ :=
        count_foldl entered
      rw [List.count_eq_zero.mpr unheard, Nat.zero_add] at times
      rw [times, if_pos]
      by_contra silent
      rw [if_neg silent] at times
      exact List.count_eq_zero.mp times member
    · exact walked.2 first front last targets' member (by simp [outside, same]) known'

theorem searchAll_counted (names : List String) : graph.Counted [] (graph.searchAll names) :=
  (List.foldlRecOn (motive := fun s => Ordered [] s ∧ graph.Counted [] s) names
    (fun s name => graph.search [] name s)
    ⟨ordered_start, fun _ _ _ _ member => by cases member⟩
    fun _ kept _ _ => ⟨search_ordered kept.1, search_counted kept.1 kept.2⟩).2

end ReferenceGraph

namespace SchemaError

/-- Both errors tell of the same cycle, though perhaps from another member on. -/
def SameCycle (error other : SchemaError) : Prop :=
  ∃ name path start way, error = .recursiveType name path ∧ other = .recursiveType start way ∧
    path.dropLast ~r way.dropLast

theorem SameCycle.isRecursive {error other : SchemaError} (same : SameCycle error other) :
    isRecursive error ∧ isRecursive other := by
  rcases same with ⟨_, _, _, _, rfl, rfl, _⟩
  exact ⟨rfl, rfl⟩

end SchemaError

namespace Schema

variable {schema : Schema}

open SchemaError (SameCycle isRecursive)

/-- The order in which names are finished singles out where a cycle begins. -/
theorem eq_of_sameCycle {error other : SchemaError} (member : error ∈ schema.cycles)
    (present : other ∈ schema.cycles) (same : SameCycle error other) : error = other := by
  rw [cycles_eq_errors] at member present
  obtain ⟨name, inner, rfl, _, sub⟩ := ReferenceGraph.cycle_of_mem_searchAll member
  obtain ⟨start, way, rfl, _, sub'⟩ := ReferenceGraph.cycle_of_mem_searchAll present
  obtain ⟨_, _, _, _, told, told', rotated⟩ := same
  cases told
  cases told'
  rw [List.dropLast_concat, List.dropLast_concat] at rotated
  have distinct := ReferenceGraph.nodup_finished (.ofSchema schema) (schema.entries.map Entry.name)
  have members := (distinct.perm_iff_eq_of_sublist sub sub').mp rotated.perm
  obtain ⟨rfl, rfl⟩ := List.cons.inj members
  rfl

theorem count_cycles {first last : String} {front : List String}
    (member : .recursiveType first (front ++ [last, first]) ∈ schema.cycles) :
    ∃ entry ∈ schema.entries, entry.name = last ∧ entry.body.isService = false ∧
      schema.cycles.count (.recursiveType first (front ++ [last, first])) =
        entry.body.references.count first := by
  obtain ⟨name, inner, told, chain⟩ := reports_of_mem_cycles member
  rw [← (SchemaError.recursiveType.inj told).2] at chain
  obtain ⟨targets, known, _⟩ := List.isChain_pair.mp chain.right_of_append
  obtain ⟨entry, inside, same, value, rfl⟩ := mem_ofSchema.mp (mem_of_find?_reverse known)
  refine ⟨entry, inside, same, value, ?_⟩
  rw [cycles_eq_errors] at member ⊢
  exact ReferenceGraph.searchAll_counted _ first front last _ member List.not_mem_nil known

theorem nodup_cycles (single : ∀ entry ∈ schema.entries, entry.body.references.Nodup) :
    schema.cycles.Nodup := by
  rw [List.nodup_iff_count_le_one]
  intro error
  by_cases member : error ∈ schema.cycles
  · obtain ⟨name, inner, rfl, _⟩ := reports_of_mem_cycles member
    rcases List.eq_nil_or_concat' (name :: inner) with empty | ⟨front, last, shape⟩
    · cases empty
    · rw [shape, List.append_assoc] at member ⊢
      obtain ⟨entry, inside, _, _, times⟩ := count_cycles member
      exact times.le.trans (List.nodup_iff_count_le_one.mp (single entry inside) name)
  · rw [List.count_eq_zero.mpr member]
    exact Nat.zero_le 1

theorem mem_cycles {error : SchemaError} (member : error ∈ schema.diagnostics)
    (recursive : isRecursive error) : error ∈ schema.cycles := by
  rw [← filter_diagnostics]
  exact List.mem_filter.mpr ⟨member, recursive⟩

/-- Two errors tell of the same cycle only if they are equal, and a cycle is told once for each
reference from its last member to its first. So it is told once if no type refers to another type
twice. -/
theorem cycles_told_apart (schema : Schema) :
    (∀ error ∈ schema.diagnostics, ∀ other ∈ schema.diagnostics,
      SameCycle error other → error = other) ∧
    (∀ first front last, .recursiveType first (front ++ [last, first]) ∈ schema.diagnostics →
      ∃ entry ∈ schema.entries, entry.name = last ∧ entry.body.isService = false ∧
        schema.diagnostics.count (.recursiveType first (front ++ [last, first])) =
          entry.body.references.count first) ∧
    ((∀ entry ∈ schema.entries, entry.body.references.Nodup) →
      schema.diagnostics.Pairwise fun error other => ¬ SameCycle error other) := by
  refine ⟨fun error member other present same => ?_, fun first front last member => ?_,
    fun single => ?_⟩
  · have recursive := same.isRecursive
    exact eq_of_sameCycle (mem_cycles member recursive.1) (mem_cycles present recursive.2) same
  · have counted := count_cycles (mem_cycles member rfl)
    rwa [← filter_diagnostics, List.count_filter rfl] at counted
  · have apart : schema.cycles.Pairwise fun error other => ¬ SameCycle error other :=
      (nodup_cycles single).imp_of_mem fun member present differ same =>
        differ (eq_of_sameCycle member present same)
    rw [← filter_diagnostics, List.pairwise_filter] at apart
    exact apart.imp fun apart same => apart same.isRecursive.1 same.isRecursive.2 same

theorem cycles_told_apart_groupsSchema :
    (∀ entry ∈ groupsSchema.entries, entry.body.references.Nodup) ∧
    (groupsSchema.diagnostics.Pairwise fun error other => ¬ SameCycle error other) ∧
    ∃ entry ∈ groupsSchema.entries, entry.name = "More" ∧ entry.body.isService = false ∧
      groupsSchema.diagnostics.count (.recursiveType "Forest" ["Forest", "More", "Forest"]) =
        entry.body.references.count "Forest" := by
  have single : ∀ entry ∈ groupsSchema.entries, entry.body.references.Nodup := by
    decide
  have told : .recursiveType "Forest" (["Forest"] ++ ["More", "Forest"]) ∈
      groupsSchema.diagnostics := by
    decide +kernel
  obtain ⟨_, counted, apart⟩ := cycles_told_apart groupsSchema
  exact ⟨single, apart single, counted _ _ _ told⟩

def linkedSchema : Schema :=
  ⟨[⟨"Node", ⟨"demo/Node", "1"⟩, [],
      .message [⟨"next", ⟨.named "Node", .sequence⟩, []⟩,
        ⟨"previous", ⟨.named "Node", .sequence⟩, []⟩]⟩]⟩

theorem cycle_told_twice :
    linkedSchema.diagnostics =
      [.recursiveType "Node" ["Node", "Node"], .recursiveType "Node" ["Node", "Node"]] ∧
    ¬ linkedSchema.diagnostics.Pairwise fun error other => ¬ SameCycle error other := by
  have told : linkedSchema.diagnostics =
      [.recursiveType "Node" ["Node", "Node"], .recursiveType "Node" ["Node", "Node"]] := by
    decide +kernel
  refine ⟨told, fun apart => ?_⟩
  rw [told] at apart
  exact List.rel_of_pairwise_cons apart (List.mem_singleton_self _)
    ⟨_, _, _, _, rfl, rfl, List.IsRotated.refl _⟩

end Schema

end WireSchema
