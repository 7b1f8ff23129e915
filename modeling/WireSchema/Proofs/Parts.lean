import WireSchema.Proofs.WellFormed

/-! What the types of a schema are made of, and that every way along the parts ends. -/

namespace WireSchema

/-- The structs that an entry stands for, each with the types of its parts. An alias has its target
as its only part. -/
def Entry.structs (entry : Entry) : List (String × List FieldType) :=
  match entry.body with
  | .message fields => [(entry.name, fields.map Field.type)]
  | .alias target => [(entry.name, [⟨target, .one⟩])]
  | .service request reply =>
    [(requestName entry.name, request.map Field.type),
      (replyName entry.name, reply.map Field.type)]

namespace Schema

def Generates (schema : Schema) (name : String) : Prop :=
  ∃ entry ∈ schema.entries, ∃ parts, (name, parts) ∈ entry.structs

def HasPart (schema : Schema) (name : String) (part : FieldType) : Prop :=
  ∃ entry ∈ schema.entries, ∃ parts, (name, parts) ∈ entry.structs ∧ part ∈ parts

def LeadsTo (schema : Schema) (name target : String) : Prop :=
  ∃ part, schema.HasPart name part ∧ part.element = .named target

/-- Every chain of references from `name` has at most `steps` steps. -/
def EndsWithin (schema : Schema) : (steps : Nat) → (name : String) → Prop
  | 0, name => ∀ target, ¬ schema.LeadsTo name target
  | steps + 1, name => ∀ target, schema.LeadsTo name target → schema.EndsWithin steps target

theorem endsWithin_next {schema : Schema} {steps : Nat} {name target : String}
    (ends : schema.EndsWithin steps name) (leads : schema.LeadsTo name target) :
    ∃ fewer, fewer < steps ∧ schema.EndsWithin fewer target := by
  cases steps with
  | zero => exact (ends target leads).elim
  | succ steps => exact ⟨steps, Nat.lt_succ_self steps, ends target leads⟩

section Order

variable {schema other : Schema}

theorem hasPart_of_perm (perm : other.entries.Perm schema.entries) {name : String}
    {part : FieldType} (has : other.HasPart name part) : schema.HasPart name part := by
  rcases has with ⟨entry, member, rest⟩
  exact ⟨entry, perm.mem_iff.mp member, rest⟩

theorem leadsTo_of_perm (perm : other.entries.Perm schema.entries) {name target : String}
    (leads : other.LeadsTo name target) : schema.LeadsTo name target := by
  rcases leads with ⟨part, has, element⟩
  exact ⟨part, hasPart_of_perm perm has, element⟩

end Order

section WellFormed

variable {schema : Schema} {name target : String}

theorem map_fst_structs_sublist (entry : Entry) :
    (entry.structs.map Prod.fst).Sublist entry.names := by
  rw [Entry.structs, Entry.names]
  cases entry.body with
  | message fields => exact List.Sublist.refl _
  | «alias» target => exact List.Sublist.refl _
  | service request reply => exact List.sublist_cons_self _ _

theorem mem_names_of_struct {entry : Entry} {parts : List FieldType}
    (struct : (name, parts) ∈ entry.structs) : name ∈ entry.names :=
  (map_fst_structs_sublist entry).subset (List.mem_map.mpr ⟨_, struct, rfl⟩)

theorem element_mem_of_struct {entry : Entry} {parts : List FieldType} {part : FieldType}
    (struct : (name, parts) ∈ entry.structs) (member : part ∈ parts) :
    part.element ∈ entry.body.elements := by
  obtain ⟨entryName, identity, docs, body⟩ := entry
  cases body with
  | message fields =>
    obtain ⟨-, rfl⟩ := Prod.mk.inj (List.mem_singleton.mp struct)
    obtain ⟨field, inside, rfl⟩ := List.mem_map.mp member
    exact Body.element_mem_of_field (List.mem_singleton_self fields) inside
  | «alias» aliased =>
    obtain ⟨-, rfl⟩ := Prod.mk.inj (List.mem_singleton.mp struct)
    rw [List.mem_singleton.mp member]
    exact List.mem_singleton_self _
  | service request reply =>
    rcases List.mem_cons.mp struct with first | second
    · obtain ⟨-, rfl⟩ := Prod.mk.inj first
      obtain ⟨field, inside, rfl⟩ := List.mem_map.mp member
      exact Body.element_mem_of_field List.mem_cons_self inside
    · obtain ⟨-, rfl⟩ := Prod.mk.inj (List.mem_singleton.mp second)
      obtain ⟨field, inside, rfl⟩ := List.mem_map.mp member
      exact Body.element_mem_of_field (List.mem_cons_of_mem _ (List.mem_singleton_self reply))
        inside

theorem declares_of_leadsTo (wellFormed : schema.WellFormed) (leads : schema.LeadsTo name target) :
    schema.Declares target := by
  rcases leads with ⟨part, ⟨entry, member, parts, struct, inside⟩, element⟩
  have used := element_mem_of_struct struct inside
  rw [element] at used
  exact wellFormed.references_declared entry member target used

theorem entry_unique (distinct : schema.names.Nodup) {first second : Entry}
    (firstIn : first ∈ schema.entries) (secondIn : second ∈ schema.entries)
    (firstHas : name ∈ first.names) (secondHas : name ∈ second.names) : first = second := by
  by_contra differ
  have apart := (List.nodup_flatMap.mp distinct).2
  have symmetric : Std.Symm (Function.onFun List.Disjoint Entry.names) := ⟨fun _ _ h => h.symm⟩
  have disjoint := apart.forall firstIn secondIn differ
  exact disjoint firstHas secondHas

/-- A declared type leads where it refers to; no half of a service has its name. -/
theorem refersTo_of_leadsTo (wellFormed : schema.WellFormed) (declared : schema.Declares name)
    (leads : schema.LeadsTo name target) : schema.RefersTo name target := by
  rcases leads with ⟨part, ⟨entry, member, parts, struct, inside⟩, element⟩
  rcases declared with ⟨declaring, declaringIn, rfl, value⟩
  have same := entry_unique wellFormed.names_distinct declaringIn member declaring.name_mem_names
    (mem_names_of_struct struct)
  have used := element_mem_of_struct struct inside
  rw [element, ← same] at used
  exact ⟨declaring, declaringIn, rfl, value, used⟩

/-- A name from which some chain has more than `steps` steps. -/
theorem exists_chain_of_not_endsWithin {steps : Nat} (long : ¬ schema.EndsWithin steps name) :
    ∃ chain : List String, chain.length = steps + 1 ∧ (name :: chain).IsChain schema.LeadsTo := by
  induction steps generalizing name with
  | zero =>
    simp only [EndsWithin, not_forall, not_not] at long
    obtain ⟨target, leads⟩ := long
    exact ⟨[target], rfl, List.isChain_pair.mpr leads⟩
  | succ steps ih =>
    simp only [EndsWithin, not_forall] at long
    obtain ⟨target, leads, long⟩ := long
    obtain ⟨chain, length, linked⟩ := ih long
    exact ⟨target :: chain, by rw [List.length_cons, length], .cons_cons leads linked⟩

/-- What stands in a chain behind its head is what something leads to. -/
theorem exists_of_isChain_cons {r : String → String → Prop} {chain : List String}
    (linked : (name :: chain).IsChain r) (member : target ∈ chain) : ∃ other, r other target := by
  induction chain generalizing name with
  | nil => cases member
  | cons next chain ih =>
    obtain ⟨step, rest⟩ := List.isChain_cons_cons.mp linked
    rcases List.mem_cons.mp member with rfl | later
    · exact ⟨name, step⟩
    · exact ih rest later

/-- A chain of declared names never comes back to one of them. -/
theorem nodup_of_isChain (wellFormed : schema.WellFormed) {chain : List String}
    (declared : ∀ name ∈ chain, schema.Declares name) (linked : chain.IsChain schema.LeadsTo) :
    chain.Nodup := by
  have refers : chain.IsChain (Relation.TransGen schema.RefersTo) := by
    apply List.IsChain.imp_of_mem_imp _ linked
    intro name target member _ leads
    exact .single (refersTo_of_leadsTo wellFormed (declared name member) leads)
  have ordered := refers.pairwise
  refine ordered.imp fun {first later} leads same => ?_
  subst same
  exact wellFormed.acyclic first leads

theorem endsWithin_length (wellFormed : schema.WellFormed) (name : String) :
    schema.EndsWithin schema.entries.length name := by
  by_contra long
  obtain ⟨chain, length, linked⟩ := exists_chain_of_not_endsWithin long
  have declared : ∀ target ∈ chain, schema.Declares target := by
    intro target member
    obtain ⟨other, leads⟩ := exists_of_isChain_cons linked member
    exact declares_of_leadsTo wellFormed leads
  have distinct := nodup_of_isChain wellFormed declared linked.tail
  have listed : chain ⊆ schema.entries.map Entry.name := by
    intro target member
    obtain ⟨entry, inside, same, _⟩ := declared target member
    exact List.mem_map.mpr ⟨entry, inside, same⟩
  have short := (distinct.subperm listed).length_le
  rw [List.length_map] at short
  omega

end WellFormed

end Schema

end WireSchema
