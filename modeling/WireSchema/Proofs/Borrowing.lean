import WireSchema.Proofs.Parts
import WireSchema.Schema.WireTypes

/-! What is found to occur in types, against what chains of references reach. -/

namespace WireSchema

/-- What may occur in a type at some depth. -/
inductive Occurrence where
  | borrowed
  | sequence
  deriving DecidableEq, Repr

namespace Contents

def has (contents : Contents) : Occurrence → Bool
  | .borrowed => contents.borrowed
  | .sequence => contents.sequence

@[simp] theorem has_empty (what : Occurrence) : empty.has what = false := by
  cases what <;> rfl

@[simp] theorem has_union (a b : Contents) (what : Occurrence) :
    (a.union b).has what = (a.has what || b.has what) := by
  cases what <;> rfl

@[simp] theorem empty_union (contents : Contents) : empty.union contents = contents := by
  simp [empty, union]

end Contents

/-- The part by itself is a string or a sequence, or only the latter, whatever its element is. -/
def FieldType.Shows (part : FieldType) : Occurrence → Prop
  | .borrowed => part.element = .base .string ∨ part.cardinality = .sequence
  | .sequence => part.cardinality = .sequence

/-- A chain of references from `name` reaches a part that shows `what`. -/
def Schema.Reaches (schema : Schema) (what : Occurrence) (name : String) : Prop :=
  ∃ last part, Relation.ReflTransGen schema.LeadsTo name last ∧ schema.HasPart last part ∧
    part.Shows what

section Lookup

variable {α : Type} {pairs : List (String × α)} {name : String} {value : α}

theorem lookup_eq_some_of_mem (distinct : (pairs.map Prod.fst).Nodup)
    (member : (name, value) ∈ pairs) : pairs.lookup name = some value := by
  induction pairs with
  | nil => cases member
  | cons pair rest ih =>
    rw [List.map_cons, List.nodup_cons] at distinct
    rcases List.mem_cons.mp member with rfl | later
    · simp
    · have differs : name ≠ pair.1 := by
        rintro rfl
        exact distinct.1 (List.mem_map.mpr ⟨_, later, rfl⟩)
      rw [List.lookup_cons, beq_false_of_ne differs]
      exact ih distinct.2 later

theorem mem_of_lookup_eq_some (found : pairs.lookup name = some value) : (name, value) ∈ pairs := by
  obtain ⟨before, after, rfl, -⟩ := List.lookup_eq_some_iff.mp found
  simp

theorem exists_lookup_of_mem (member : (name, value) ∈ pairs) :
    ∃ found, pairs.lookup name = some found := by
  induction pairs with
  | nil => cases member
  | cons pair rest ih =>
    rw [List.lookup_cons]
    split
    · exact ⟨pair.2, rfl⟩
    · rename_i differs
      rcases List.mem_cons.mp member with rfl | later
      · simp at differs
      · exact ih later

end Lookup

namespace ContentsTable

variable {table : ContentsTable} {what : Occurrence}

def ofPart (table : ContentsTable) (part : FieldType) : Contents :=
  match part.cardinality with
  | .sequence => ⟨true, true⟩
  | .one | .array _ => table.ofElement part.element

def ofParts (table : ContentsTable) (parts : List FieldType) : Contents :=
  parts.foldl (fun found part => found.union (table.ofPart part)) .empty

theorem ofFields_eq_ofParts (table : ContentsTable) (fields : List Field) :
    table.ofFields fields = table.ofParts (fields.map Field.type) := by
  rw [ofParts, List.foldl_map]
  rfl

theorem ofEntry_eq_map_structs (table : ContentsTable) (entry : Entry) :
    table.ofEntry entry = entry.structs.map fun (name, parts) => (name, table.ofParts parts) := by
  obtain ⟨name, identity, docs, body⟩ := entry
  cases body with
  | message fields => simp [ofEntry, Entry.structs, ofFields_eq_ofParts]
  | «alias» target => simp [ofEntry, Entry.structs, ofParts, ofPart]
  | service request reply =>
    simp [ofEntry, Entry.structs, Entry.fieldLists, ofFields_eq_ofParts]

theorem has_ofPart_iff {part : FieldType} :
    (table.ofPart part).has what = true ↔
      part.Shows what ∨ ∃ target, part.element = .named target ∧
        (table.get target).has what = true := by
  obtain ⟨element, cardinality⟩ := part
  cases cardinality with
  | sequence => cases what <;> simp [ofPart, FieldType.Shows, Contents.has]
  | one | array length =>
    cases element with
    | named name => cases what <;> simp [ofPart, ofElement, FieldType.Shows]
    | base type =>
      cases type <;> cases what <;>
        simp [ofPart, ofElement, FieldType.Shows, Contents.has, Contents.empty]

theorem has_ofParts (table : ContentsTable) (parts : List FieldType) (what : Occurrence) :
    (table.ofParts parts).has what = parts.any fun part => (table.ofPart part).has what := by
  have fold (found : Contents) :
      (parts.foldl (fun found part => found.union (table.ofPart part)) found).has what =
        (found.has what || parts.any fun part => (table.ofPart part).has what) := by
    induction parts generalizing found with
    | nil => simp
    | cons part rest ih =>
      rw [List.foldl_cons, ih, Contents.has_union, List.any_cons, Bool.or_assoc]
  rw [ofParts, fold, Contents.has_empty, Bool.false_or]

end ContentsTable

namespace Schema

variable {schema : Schema} {what : Occurrence} {name : String}

theorem reaches_iff : schema.Reaches what name ↔
    ∃ part, schema.HasPart name part ∧
      (part.Shows what ∨ ∃ target, part.element = .named target ∧ schema.Reaches what target) := by
  constructor
  · intro reaches
    rcases reaches with ⟨last, part, leads, has, shows⟩
    rcases Relation.ReflTransGen.cases_head leads with rfl | ⟨target, step, rest⟩
    · exact ⟨part, has, .inl shows⟩
    · rcases step with ⟨first, hasFirst, element⟩
      exact ⟨first, hasFirst, .inr ⟨target, element, last, part, rest, has, shows⟩⟩
  · intro next
    rcases next with ⟨part, has, shows | ⟨target, element, last, shown, leads, hasShown, shows⟩⟩
    · exact ⟨name, part, .refl, has, shows⟩
    · exact ⟨last, shown, .head ⟨part, has, element⟩ leads, hasShown, shows⟩

theorem reaches_of_perm {other : Schema} (perm : other.entries.Perm schema.entries)
    (reaches : other.Reaches what name) : schema.Reaches what name := by
  rcases reaches with ⟨last, part, leads, has, shows⟩
  refine ⟨last, part, ?_, hasPart_of_perm perm has, shows⟩
  exact Relation.ReflTransGen.mono (fun _ _ => leadsTo_of_perm perm) _ _ leads

def contentsAfter (schema : Schema) (rounds : Nat) : ContentsTable :=
  Nat.repeat (ContentsTable.step schema) rounds []

theorem map_fst_step (schema : Schema) (table : ContentsTable) :
    (ContentsTable.step schema table).map Prod.fst =
      schema.entries.flatMap fun entry => entry.structs.map Prod.fst := by
  rw [ContentsTable.step, List.map_flatMap]
  congr 1
  funext entry
  rw [ContentsTable.ofEntry_eq_map_structs, List.map_map]
  rfl

theorem nodup_structs (distinct : schema.names.Nodup) :
    (schema.entries.flatMap fun entry => entry.structs.map Prod.fst).Nodup := by
  refine List.Nodup.sublist ?_ distinct
  rw [names]
  induction schema.entries with
  | nil => exact .slnil
  | cons entry rest ih =>
    rw [List.flatMap_cons, List.flatMap_cons]
    exact (map_fst_structs_sublist entry).append ih

theorem get_step (distinct : schema.names.Nodup) (table : ContentsTable) {entry : Entry}
    {parts : List FieldType} (member : entry ∈ schema.entries)
    (struct : (name, parts) ∈ entry.structs) :
    (ContentsTable.step schema table).get name = table.ofParts parts := by
  have keys : ((ContentsTable.step schema table).map Prod.fst).Nodup := by
    rw [map_fst_step]
    exact nodup_structs distinct
  have listed : (name, table.ofParts parts) ∈ ContentsTable.step schema table := by
    apply List.mem_flatMap.mpr ⟨entry, member, _⟩
    rw [ContentsTable.ofEntry_eq_map_structs]
    exact List.mem_map.mpr ⟨(name, parts), struct, rfl⟩
  rw [ContentsTable.get, lookup_eq_some_of_mem keys listed, Option.getD_some]

theorem has_get_step_iff (distinct : schema.names.Nodup) (table : ContentsTable) :
    ((ContentsTable.step schema table).get name).has what = true ↔
      ∃ part, schema.HasPart name part ∧ (table.ofPart part).has what = true := by
  constructor
  · intro has
    cases found : (ContentsTable.step schema table).lookup name with
    | none =>
      rw [ContentsTable.get, found, Option.getD_none, Contents.has_empty] at has
      cases has
    | some contents =>
      obtain ⟨entry, member, listed⟩ := List.mem_flatMap.mp (mem_of_lookup_eq_some found)
      rw [ContentsTable.ofEntry_eq_map_structs] at listed
      obtain ⟨⟨own, parts⟩, struct, same⟩ := List.mem_map.mp listed
      obtain ⟨rfl, rfl⟩ := Prod.mk.inj same
      rw [get_step distinct table member struct, ContentsTable.has_ofParts] at has
      obtain ⟨part, inside, has⟩ := List.any_eq_true.mp has
      exact ⟨part, ⟨entry, member, parts, struct, inside⟩, has⟩
  · intro next
    rcases next with ⟨part, ⟨entry, member, parts, struct, inside⟩, has⟩
    rw [get_step distinct table member struct, ContentsTable.has_ofParts]
    exact List.any_eq_true.mpr ⟨part, inside, has⟩

/-- More rounds than a chain has steps find all that the chain reaches. -/
theorem has_contentsAfter_iff (distinct : schema.names.Nodup) {steps rounds : Nat}
    (ends : schema.EndsWithin steps name) (enough : steps < rounds) :
    ((schema.contentsAfter rounds).get name).has what = true ↔ schema.Reaches what name := by
  induction rounds generalizing steps name with
  | zero => exact (Nat.not_lt_zero steps enough).elim
  | succ rounds ih =>
    show ((ContentsTable.step schema (schema.contentsAfter rounds)).get name).has what = true ↔ _
    rw [has_get_step_iff distinct, reaches_iff]
    apply exists_congr
    intro part
    apply and_congr_right
    intro has
    rw [ContentsTable.has_ofPart_iff]
    apply or_congr_right
    apply exists_congr
    intro target
    apply and_congr_right
    intro element
    obtain ⟨fewer, less, rest⟩ := endsWithin_next ends ⟨part, has, element⟩
    exact ih rest (by omega)

end Schema

end WireSchema
