import WireSchema.Proofs.Discovery
import WireSchema.Proofs.Violations

/-! The order of the diagnostics: pass after pass, each in the order of the entries. -/

namespace WireSchema

namespace SchemaError

def subject? : SchemaError → Option String
  | .unknownType site _ | .serviceAsField site _ | .zeroLengthArray site
  | .invalidIdentifier site => some site.owner
  | .duplicateField owner _ => some owner
  | .duplicateType name | .recursiveType name _ | .emptyIdentity name
  | .reservedTypeName name => some name
  | .invalidTypeSyntax .. | .unreadableDocument => none

/-- The pass that finds an error. The first one is about the names and identities of entries, the
second one about fields and references, the third one about cycles. What no pass finds shows when a
schema is read. -/
def pass : SchemaError → Nat
  | .invalidTypeSyntax .. | .unreadableDocument => 0
  | .invalidIdentifier ⟨_, none⟩ | .emptyIdentity _ | .reservedTypeName _ | .duplicateType _ => 1
  | .invalidIdentifier ⟨_, some _⟩ | .duplicateField .. | .zeroLengthArray _ | .unknownType ..
  | .serviceAsField .. => 2
  | .recursiveType .. => 3

end SchemaError

namespace Entry

def Concerned (entry : Entry) (error : SchemaError) : Prop :=
  ∃ name ∈ entry.names, error.subject? = some name

theorem owner_mem_names {entry : Entry} {owner : String} {fields : List Field}
    (listed : (owner, fields) ∈ entry.fieldLists) : owner ∈ entry.names := by
  rw [fieldLists] at listed
  rw [names]
  cases shape : entry.body with
  | message fields =>
    rw [shape] at listed
    cases List.mem_singleton.mp listed
    exact List.mem_singleton_self _
  | «alias» target =>
    rw [shape] at listed
    cases listed
  | service request reply =>
    rw [shape] at listed
    simp only [List.mem_cons, Prod.mk.injEq, List.not_mem_nil, or_false] at listed
    rcases listed with ⟨rfl, -⟩ | ⟨rfl, -⟩ <;> simp

end Entry

section Blocks

variable {own weaker : Nat → SchemaError → Prop} {start : Nat} {errors : List SchemaError}

inductive Blocks (own : Nat → SchemaError → Prop) : Nat → List SchemaError → Prop
  | nil {start : Nat} : Blocks own start []
  | cons {start : Nat} {block rest : List SchemaError} (each : ∀ error ∈ block, own start error)
    (others : Blocks own (start + 1) rest) : Blocks own start (block ++ rest)

theorem Blocks.mono (blocks : Blocks own start errors)
    (imp : ∀ i error, own i error → weaker i error) : Blocks weaker start errors := by
  induction blocks with
  | nil => exact .nil
  | cons each _ ih => exact .cons (fun error member => imp _ error (each error member)) ih

theorem Blocks.exists_own (blocks : Blocks own start errors) :
    ∀ error ∈ errors, ∃ i, start ≤ i ∧ own i error := by
  induction blocks with
  | nil => exact List.forall_mem_nil _
  | cons each _ ih =>
    intro error member
    rcases List.mem_append.mp member with first | later
    · exact ⟨_, Nat.le_refl _, each error first⟩
    · obtain ⟨i, above, owned⟩ := ih error later
      exact ⟨i, by omega, owned⟩

theorem Blocks.pairwise (blocks : Blocks own start errors) :
    errors.Pairwise fun error later => ∃ i j, i ≤ j ∧ own i error ∧ own j later := by
  induction blocks with
  | nil => exact .nil
  | cons each others ih =>
    refine List.pairwise_append.mpr ⟨?_, ih, fun error member later after => ?_⟩
    · refine List.pairwise_of_forall_mem_list fun error member later after => ?_
      exact ⟨_, _, Nat.le_refl _, each error member, each later after⟩
    · obtain ⟨j, above, owned⟩ := others.exists_own later after
      exact ⟨_, j, by omega, each error member, owned⟩

end Blocks

namespace ReferenceGraph

variable {graph : ReferenceGraph}

/-- The error is about a cycle to which this name leads and no earlier one does. -/
def FirstLeads (graph : ReferenceGraph) (names : List String) (i : Nat) (error : SchemaError) :
    Prop :=
  ∃ start name way, error = .recursiveType name way ∧ names[i]? = some start ∧
    Relation.ReflTransGen graph.Refers start name ∧
    ∀ earlier ∈ names.take i, ¬ Relation.ReflTransGen graph.Refers earlier name

theorem foldl_blocks {before rest : List String} {found : Search}
    (closed : graph.Closed [] found.finished)
    (walked : ∀ name ∈ before, graph.Known name → name ∈ found.finished) :
    ∃ new, (rest.foldl (fun s name => graph.search [] name s) found).errors =
        found.errors ++ new ∧
      Blocks (graph.FirstLeads (before ++ rest)) before.length new := by
  induction rest generalizing before found with
  | nil => exact ⟨[], by simp, .nil⟩
  | cons name rest ih =>
    obtain ⟨block, same, newly⟩ := @search_adds graph [] name found (List.forall_mem_nil _)
    obtain ⟨closed', reached⟩ := @search_closed graph [] name found closed
    have walked' : ∀ other ∈ before ++ [name], graph.Known other →
        other ∈ (graph.search [] name found).finished := by
      intro other member known
      rcases List.mem_append.mp member with earlier | last
      · exact finished_subset_search _ _ _ (walked other earlier known)
      · obtain rfl := List.mem_singleton.mp last
        exact (reached known).resolve_right List.not_mem_nil
    obtain ⟨new, same', blocks⟩ := ih closed' walked'
    rw [List.append_assoc, List.length_append, List.length_singleton] at blocks
    refine ⟨block ++ new, by rw [List.foldl_cons, same', same, List.append_assoc],
      .cons (fun error member => ?_) blocks⟩
    obtain ⟨target, way, told, known, unfinished, leads⟩ := newly error member
    refine ⟨name, target, way, told, by simp, leads.resolve_left List.not_mem_nil, ?_⟩
    intro earlier inside leads
    rw [List.take_left] at inside
    -- What an earlier name leads to was finished before.
    have finished := walked earlier inside (known_of_leads leads known)
    exact unfinished (closed.mem_of_leads finished leads known)

theorem blocks_searchAll (graph : ReferenceGraph) (names : List String) :
    Blocks (graph.FirstLeads names) 0 (graph.searchAll names).errors := by
  obtain ⟨new, same, blocks⟩ := @foldl_blocks graph [] names ⟨[], []⟩
    (List.forall_mem_nil _) (List.forall_mem_nil _)
  rw [searchAll, same]
  exact blocks

end ReferenceGraph

namespace Schema

variable {schema : Schema}

section Passes

theorem concerned_nameErrors {earlier names : List String} :
    ∀ error ∈ nameErrors earlier names,
      error.pass = 1 ∧ ∃ name ∈ names, error.subject? = some name := by
  induction names generalizing earlier with
  | nil => exact List.forall_mem_nil _
  | cons name rest ih =>
    intro error member
    rw [nameErrors] at member
    simp only [List.mem_append, List.mem_ite_nil_right, List.mem_singleton] at member
    rcases member with (⟨-, rfl⟩ | ⟨-, rfl⟩) | later
    · exact ⟨rfl, name, List.mem_cons_self, rfl⟩
    · exact ⟨rfl, name, List.mem_cons_self, rfl⟩
    · obtain ⟨first, other, inside, subject⟩ := ih error later
      exact ⟨first, other, List.mem_cons_of_mem _ inside, subject⟩

theorem subject_referenceErrors {site : Site} {element : TypeRef} :
    ∀ error ∈ schema.referenceErrors site element,
      error.pass = 2 ∧ error.subject? = some site.owner := by
  intro error member
  cases element with
  | base type => cases member
  | named name =>
    rw [referenceErrors] at member
    split at member
    · cases member
    all_goals
      rw [List.mem_singleton.mp member]
      exact ⟨rfl, rfl⟩

theorem subject_fieldErrors {owner : String} {earlier : List String} {fields : List Field} :
    ∀ error ∈ schema.fieldErrors owner earlier fields,
      error.pass = 2 ∧ error.subject? = some owner := by
  induction fields generalizing earlier with
  | nil => exact List.forall_mem_nil _
  | cons field rest ih =>
    intro error member
    rw [fieldErrors] at member
    simp only [List.mem_append, List.mem_ite_nil_left, List.mem_ite_nil_right,
      List.mem_singleton] at member
    rcases member with (((⟨-, rfl⟩ | ⟨-, rfl⟩) | ⟨-, rfl⟩) | astray) | later
    · exact ⟨rfl, rfl⟩
    · exact ⟨rfl, rfl⟩
    · exact ⟨rfl, rfl⟩
    · exact subject_referenceErrors error astray
    · exact ih error later

theorem concerned_bodyErrors {entry : Entry} :
    ∀ error ∈ schema.bodyErrors entry, error.pass = 2 ∧ entry.Concerned error := by
  intro error member
  rw [bodyErrors_eq] at member
  rcases List.mem_append.mp member with target | fields
  · rw [targetErrors] at target
    split at target
    · obtain ⟨second, subject⟩ := subject_referenceErrors error target
      exact ⟨second, _, entry.name_mem_names, subject⟩
    all_goals cases target
  · obtain ⟨⟨owner, _⟩, listed, member⟩ := List.mem_flatMap.mp fields
    obtain ⟨second, subject⟩ := subject_fieldErrors error member
    exact ⟨second, owner, Entry.owner_mem_names listed, subject⟩

variable {before entries : List Entry}

def Concerns (schema : Schema) (i : Nat) (error : SchemaError) : Prop :=
  ∃ entry, schema.entries[i]? = some entry ∧ entry.Concerned error

theorem blocks_entryErrors {earlier : List String} (all : schema.entries = before ++ entries) :
    Blocks (fun i error => error.pass = 1 ∧ schema.Concerns i error) before.length
      (entryErrors earlier entries) := by
  induction entries generalizing before earlier with
  | nil => exact .nil
  | cons entry rest ih =>
    have later := @ih (before ++ [entry]) (earlier ++ entry.generatedNames) (by simp [all])
    rw [List.length_append, List.length_singleton] at later
    refine .cons (fun error member => ?_) later
    have stands : schema.entries[before.length]? = some entry := by simp [all]
    simp only [List.mem_append, List.mem_ite_nil_left, List.mem_ite_nil_right,
      List.mem_singleton] at member
    rcases member with (⟨-, rfl⟩ | ⟨-, rfl⟩) | named
    · exact ⟨rfl, entry, stands, _, entry.name_mem_names, rfl⟩
    · exact ⟨rfl, entry, stands, _, entry.name_mem_names, rfl⟩
    · obtain ⟨first, name, inside, subject⟩ := concerned_nameErrors error named
      rw [generatedNames_eq] at inside
      exact ⟨first, entry, stands, name, inside, subject⟩

theorem blocks_bodyErrors (all : schema.entries = before ++ entries) :
    Blocks (fun i error => error.pass = 2 ∧ schema.Concerns i error) before.length
      (entries.flatMap schema.bodyErrors) := by
  induction entries generalizing before with
  | nil => exact .nil
  | cons entry rest ih =>
    have later := ih (all.trans (List.append_cons _ _ _))
    rw [List.length_append, List.length_singleton] at later
    rw [List.flatMap_cons]
    refine .cons (fun error member => ?_) later
    obtain ⟨second, concerned⟩ := concerned_bodyErrors error member
    exact ⟨second, entry, by simp [all], concerned⟩

end Passes

/-- The entry from which an error is found. A cycle is found from the first entry that leads to it,
any other fault from the entry that it is about. -/
inductive FoundFrom (schema : Schema) : SchemaError → Nat → Prop
  | own {error : SchemaError} {i : Nat} (single : error.pass ≠ 3)
      (concerns : schema.Concerns i error) : FoundFrom schema error i
  | cycle {name : String} {way : List String} {start : Entry} {i : Nat}
      (stands : schema.entries[i]? = some start)
      (leads : Relation.ReflTransGen schema.RefersTo start.name name)
      (first : ∀ earlier ∈ schema.entries.take i,
        ¬ Relation.ReflTransGen schema.RefersTo earlier.name name) :
    FoundFrom schema (.recursiveType name way) i

section Distinct

variable (distinct : schema.names.Nodup)
include distinct

theorem nodup_map_name : (schema.entries.map Entry.name).Nodup := by
  refine List.pairwise_map.mpr ((List.nodup_flatMap.mp distinct).2.imp ?_)
  intro entry other apart same
  exact apart entry.name_mem_names (same ▸ other.name_mem_names)

theorem not_concerns_of_lt {i j : Nat} {error : SchemaError} (before : i < j)
    (concerns : schema.Concerns i error) : ¬ schema.Concerns j error := by
  rcases concerns with ⟨entry, stands, name, inside, subject⟩
  rintro ⟨other, stands', name', inside', subject'⟩
  cases subject.symm.trans subject'
  obtain ⟨short, rfl⟩ := List.getElem?_eq_some_iff.mp stands
  obtain ⟨short', rfl⟩ := List.getElem?_eq_some_iff.mp stands'
  have apart := List.pairwise_iff_getElem.mp (List.nodup_flatMap.mp distinct).2 i j short short'
    before
  exact apart inside inside'

theorem not_foundFrom_of_lt {i j : Nat} {error : SchemaError} (before : i < j)
    (found : schema.FoundFrom error i) : ¬ schema.FoundFrom error j := by
  intro found'
  cases found with
  | own single concerns =>
    cases found' with
    | own single' concerns' => exact not_concerns_of_lt distinct before concerns concerns'
    | cycle => exact single rfl
  | cycle stands leads first =>
    cases found' with
    | own single' concerns' => exact single' rfl
    | cycle stands' leads' first' =>
      exact first' _ (List.mem_of_getElem? ((List.getElem?_take_of_lt before).trans stands)) leads

theorem foundFrom_unique {i j : Nat} {error : SchemaError} (found : schema.FoundFrom error i)
    (found' : schema.FoundFrom error j) : i = j := by
  rcases Nat.lt_trichotomy i j with before | same | after
  · exact absurd found' (not_foundFrom_of_lt distinct before found)
  · exact same
  · exact absurd found (not_foundFrom_of_lt distinct after found')

def FoundBy (schema : Schema) (pass i : Nat) (error : SchemaError) : Prop :=
  error.pass = pass ∧ schema.FoundFrom error i

theorem blocks_cycles : Blocks (schema.FoundBy 3) 0 schema.cycles := by
  rw [cycles_eq_errors]
  refine (ReferenceGraph.blocks_searchAll _ _).mono ?_
  rintro i error ⟨start, name, way, rfl, stands, leads, first⟩
  rw [refers_ofSchema_entries (nodup_map_name distinct)] at leads first
  rw [List.getElem?_map, Option.map_eq_some_iff] at stands
  obtain ⟨entry, stands, rfl⟩ := stands
  refine ⟨rfl, .cycle stands leads fun earlier inside => first _ ?_⟩
  rw [← List.map_take]
  exact List.mem_map_of_mem inside

/-- The first pass, then the second one, then the third one, and each of them entry by entry. -/
theorem blocks_diagnostics : ∃ names bodies cycles, schema.diagnostics = names ++ bodies ++ cycles ∧
    Blocks (schema.FoundBy 1) 0 names ∧ Blocks (schema.FoundBy 2) 0 bodies ∧
    Blocks (schema.FoundBy 3) 0 cycles := by
  refine ⟨_, _, _, rfl, ?_, ?_, blocks_cycles distinct⟩
  · refine (blocks_entryErrors (List.nil_append _).symm).mono ?_
    rintro i error ⟨first, concerns⟩
    exact ⟨first, .own (by omega) concerns⟩
  · refine (blocks_bodyErrors (List.nil_append _).symm).mono ?_
    rintro i error ⟨second, concerns⟩
    exact ⟨second, .own (by omega) concerns⟩

theorem exists_foundFrom : ∀ error ∈ schema.diagnostics, ∃ i, schema.FoundFrom error i := by
  obtain ⟨names, bodies, cycles, parts, first, second, third⟩ := blocks_diagnostics distinct
  have found {pass : Nat} {errors : List SchemaError}
      (blocks : Blocks (schema.FoundBy pass) 0 errors) :
      ∀ error ∈ errors, ∃ i, schema.FoundFrom error i := by
    intro error member
    obtain ⟨i, -, -, found⟩ := blocks.exists_own error member
    exact ⟨i, found⟩
  rw [parts, List.forall_mem_append, List.forall_mem_append]
  exact ⟨⟨found first, found second⟩, found third⟩

/-- The error is found by an earlier pass than the other one, or by the same pass and from no later
entry. -/
def Precedes (schema : Schema) (error later : SchemaError) : Prop :=
  error.pass < later.pass ∨ error.pass = later.pass ∧
    ∀ i j, schema.FoundFrom error i → schema.FoundFrom later j → i ≤ j

theorem pairwise_precedes {pass : Nat} {errors : List SchemaError}
    (blocks : Blocks (schema.FoundBy pass) 0 errors) : errors.Pairwise schema.Precedes := by
  refine blocks.pairwise.imp ?_
  rintro error later ⟨i, j, order, ⟨same, found⟩, same', found'⟩
  refine .inr ⟨same.trans same'.symm, fun i' j' other other' => ?_⟩
  rwa [foundFrom_unique distinct other found, foundFrom_unique distinct other' found']

omit distinct in
theorem precedes_of_blocks {m n : Nat} {front back : List SchemaError} (less : m < n)
    (blocks : Blocks (schema.FoundBy m) 0 front) (blocks' : Blocks (schema.FoundBy n) 0 back) :
    ∀ error ∈ front, ∀ later ∈ back, schema.Precedes error later := by
  intro error member later after
  obtain ⟨-, -, same, -⟩ := blocks.exists_own error member
  obtain ⟨-, -, same', -⟩ := blocks'.exists_own later after
  exact .inl (by omega)

theorem pairwise_diagnostics : schema.diagnostics.Pairwise schema.Precedes := by
  obtain ⟨names, bodies, cycles, parts, first, second, third⟩ := blocks_diagnostics distinct
  rw [parts, List.pairwise_append, List.pairwise_append, List.forall_mem_append]
  exact ⟨⟨pairwise_precedes distinct first, pairwise_precedes distinct second,
      precedes_of_blocks (by decide) first second⟩, pairwise_precedes distinct third,
    precedes_of_blocks (by decide) first third, precedes_of_blocks (by decide) second third⟩

theorem lt_iff_pass_le {i j p q : Nat} {error later : SchemaError} (before : i < j)
    (found : schema.FoundFrom error i) (found' : schema.FoundFrom later j)
    (listed : schema.diagnostics[p]? = some error)
    (listed' : schema.diagnostics[q]? = some later) : p < q ↔ error.pass ≤ later.pass := by
  obtain ⟨short, told⟩ := List.getElem?_eq_some_iff.mp listed
  obtain ⟨short', told'⟩ := List.getElem?_eq_some_iff.mp listed'
  have order := List.pairwise_iff_getElem.mp (pairwise_diagnostics distinct)
  constructor
  · intro less
    have precedes := order p q short short' less
    rw [told, told'] at precedes
    rcases precedes with lower | ⟨same, -⟩ <;> omega
  · intro lower
    rcases Nat.lt_trichotomy p q with less | rfl | greater
    · exact less
    · cases told.symm.trans told'
      exact absurd found' (not_foundFrom_of_lt distinct before found)
    · have precedes := order q p short' short greater
      rw [told, told'] at precedes
      rcases precedes with higher | ⟨-, ordered⟩
      · omega
      · have back := ordered j i found' found
        omega

theorem precedes_of_compile {first : SchemaError} {error : SchemaError}
    (compile : schema.compile = .error first) (member : error ∈ schema.diagnostics) :
    schema.Precedes first error := by
  have order := pairwise_diagnostics distinct
  rw [Schema.compile] at compile
  cases listed : schema.diagnostics with
  | nil =>
    rw [listed] at member
    cases member
  | cons head rest =>
    rw [listed] at compile member order
    cases compile
    rcases List.mem_cons.mp member with rfl | after
    · exact .inr ⟨rfl, fun i j found found' => (foundFrom_unique distinct found found').le⟩
    · exact List.rel_of_pairwise_cons order after

end Distinct

/-- The diagnostics stand in the order of the passes and, where one pass finds them, in the order of
the entries from which they are found. The error with which a schema fails to compile is one that
the first pass to find any finds from the earliest entry. -/
theorem diagnostics_ordered_by_pass (schema : Schema) (distinct : schema.names.Nodup) :
    (∀ error ∈ schema.diagnostics, ∃! i, schema.FoundFrom error i) ∧
    (∀ (i j p q : Nat) error later, i < j → schema.FoundFrom error i → schema.FoundFrom later j →
      schema.diagnostics[p]? = some error → schema.diagnostics[q]? = some later →
      (p < q ↔ error.pass ≤ later.pass)) ∧
    ∀ first, schema.compile = .error first →
      ∀ error ∈ schema.diagnostics, schema.Precedes first error := by
  refine ⟨fun error member => ?_, fun i j p q error later before found found' => ?_,
    fun first compile error member => precedes_of_compile distinct compile member⟩
  · obtain ⟨i, found⟩ := exists_foundFrom distinct error member
    exact ⟨i, found, fun j other => foundFrom_unique distinct other found⟩
  · exact lt_iff_pass_le distinct before found found'

/-- The third message contains itself and is part of the first one; between them stands another one
that contains itself. -/
def loopsSchema : Schema :=
  ⟨[⟨"Outer", ⟨"demo/Outer", "1"⟩, [], .message [⟨"inner", ⟨.named "Inner", .one⟩, []⟩]⟩,
    ⟨"Other", ⟨"demo/Other", "2"⟩, [], .message [⟨"others", ⟨.named "Other", .sequence⟩, []⟩]⟩,
    ⟨"Inner", ⟨"demo/Inner", "3"⟩, [], .message [⟨"inners", ⟨.named "Inner", .sequence⟩, []⟩]⟩]⟩

theorem refersTo_loopsSchema {name target : String} : loopsSchema.RefersTo name target ↔
    ("Outer" = name ∧ target = "Inner") ∨ ("Other" = name ∧ target = "Other") ∨
      ("Inner" = name ∧ target = "Inner") := by
  simp [loopsSchema, RefersTo, Body.elements, Body.isService]

theorem foundFrom_loopsSchema :
    loopsSchema.FoundFrom (.recursiveType "Inner" ["Inner", "Inner"]) 0 ∧
      loopsSchema.FoundFrom (.recursiveType "Other" ["Other", "Other"]) 1 := by
  constructor
  · exact .cycle rfl (.single (refersTo_loopsSchema.mpr (.inl ⟨rfl, rfl⟩)))
      (List.forall_mem_nil _)
  · refine .cycle rfl .refl fun earlier inside leads => ?_
    obtain rfl := List.mem_singleton.mp inside
    have inner {target : String}
        (leads : Relation.ReflTransGen loopsSchema.RefersTo "Outer" target) :
        target = "Outer" ∨ target = "Inner" := by
      induction leads with
      | refl => exact .inl rfl
      | tail _ refers ih =>
        rcases refersTo_loopsSchema.mp refers with ⟨-, rfl⟩ | ⟨rfl, -⟩ | ⟨-, rfl⟩
        · exact .inr rfl
        · simp at ih
        · exact .inr rfl
    exact absurd (inner leads) (by decide)

theorem diagnostics_ordered_by_pass_loopsSchema :
    loopsSchema.names.Nodup ∧
    (∃! i, loopsSchema.FoundFrom (.recursiveType "Inner" ["Inner", "Inner"]) i) ∧
    (0 < 1 ↔ (SchemaError.recursiveType "Inner" ["Inner", "Inner"]).pass ≤
      (SchemaError.recursiveType "Other" ["Other", "Other"]).pass) ∧
    loopsSchema.Precedes (.recursiveType "Inner" ["Inner", "Inner"])
      (.recursiveType "Other" ["Other", "Other"]) := by
  have distinct : loopsSchema.names.Nodup := by
    decide
  have told : loopsSchema.diagnostics = [.recursiveType "Inner" ["Inner", "Inner"],
      .recursiveType "Other" ["Other", "Other"]] := by
    decide +kernel
  have fails : loopsSchema.compile = .error (.recursiveType "Inner" ["Inner", "Inner"]) := by
    rw [compile, told]
  obtain ⟨unique, order, first⟩ := diagnostics_ordered_by_pass loopsSchema distinct
  obtain ⟨inner, other⟩ := foundFrom_loopsSchema
  rw [told] at unique order first
  exact ⟨distinct, unique _ (by simp), order 0 1 0 1 _ _ (by decide) inner other rfl rfl,
    first _ fails _ (by simp)⟩

def TellsInOrder (schema : Schema) : Prop :=
  ∀ (i j p q : Nat) (error later : SchemaError), i < j →
    schema.Concerns i error → schema.Concerns j later →
    schema.diagnostics[p]? = some error → schema.diagnostics[q]? = some later → p < q

def FailsEarliest (schema : Schema) : Prop :=
  ∀ first, schema.compile = .error first → ∀ (i j : Nat), ∀ error ∈ schema.diagnostics,
    schema.Concerns i first → schema.Concerns j error → i ≤ j

def faultySchema : Schema :=
  ⟨[⟨"A", ⟨"a", "h"⟩, [], .message [⟨"x", ⟨.named "Missing", .one⟩, []⟩]⟩,
    ⟨"B", ⟨"", "h"⟩, [], .message []⟩]⟩

/-- The fault of the second entry is found by an earlier pass. -/
theorem not_tellsInOrder_faultySchema :
    faultySchema.names.Nodup ∧ ¬ faultySchema.TellsInOrder ∧ ¬ faultySchema.FailsEarliest := by
  have told : faultySchema.diagnostics =
      [.emptyIdentity "B", .unknownType (.field "A" "x") "Missing"] := by
    decide +kernel
  have fails : faultySchema.compile = .error (.emptyIdentity "B") := by
    rw [compile, told]
  have unknown : faultySchema.Concerns 0 (.unknownType (.field "A" "x") "Missing") :=
    ⟨_, rfl, "A", by decide, rfl⟩
  have empty : faultySchema.Concerns 1 (.emptyIdentity "B") :=
    ⟨_, rfl, "B", by decide, rfl⟩
  refine ⟨by decide, fun ordered => ?_, fun earliest => ?_⟩
  · have order := ordered 0 1 1 0 _ _ (by decide) unknown empty
    rw [told] at order
    exact absurd (order rfl rfl) (by decide)
  · have order := earliest _ fails 1 0 _ (by simp [told]) empty unknown
    exact absurd order (by decide)

end Schema

end WireSchema
