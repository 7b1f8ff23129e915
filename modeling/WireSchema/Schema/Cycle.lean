import WireSchema.Schema.Basic
import WireSchema.Schema.Error

/-! Types that contain themselves; a name met again on the way to it closes a cycle. -/

namespace WireSchema

abbrev ReferenceGraph := List (String × List String)

namespace ReferenceGraph

def ofSchema (schema : Schema) : ReferenceGraph :=
  schema.entries.filterMap fun entry =>
    if entry.body.isService then none else some (entry.name, entry.body.references)

/-- The references of a name; of several declarations the last one counts. -/
def targets? (graph : ReferenceGraph) (name : String) : Option (List String) :=
  (graph.reverse.find? (·.1 == name)).map Prod.snd

def unvisited (graph : ReferenceGraph) (path : List String) : Nat :=
  (graph.filter fun node => !path.contains node.1).length

theorem unvisited_append_lt {graph : ReferenceGraph} {path : List String} {name : String}
    {targets : List String} (found : graph.targets? name = some targets)
    (fresh : ¬ path.contains name = true) :
    graph.unvisited (path ++ [name]) < graph.unvisited path := by
  have narrow : graph.filter (fun node => !(path ++ [name]).contains node.1) =
      (graph.filter fun node => !path.contains node.1).filter fun node => !(node.1 == name) := by
    rw [List.filter_filter]
    congr 1
    funext node
    simp [Bool.and_comm, Bool.not_or, Bool.beq_eq_decide_eq]
  obtain ⟨node, hnode, -⟩ := Option.map_eq_some_iff.mp found
  have member : node ∈ graph := List.mem_reverse.mp (List.mem_of_find?_eq_some hnode)
  have same : node.1 = name := by simpa using List.find?_some hnode
  rw [unvisited, narrow]
  refine List.length_filter_lt_length_iff_exists.mpr ⟨node, ?_, by simp [same]⟩
  exact List.mem_filter.mpr ⟨member, by rw [same]; simpa using fresh⟩

structure Search where
  finished : List String
  errors : List SchemaError

/-- Walks on from `name`, reached along `path`. A name that the graph does not have leads
nowhere and stays unfinished. -/
def search (graph : ReferenceGraph) (path : List String) (name : String) (found : Search) :
    Search :=
  if found.finished.contains name then found
  else if _fresh : path.contains name then
    let cycle := path.dropWhile (· != name) ++ [name]
    { found with errors := found.errors ++ [.recursiveType name cycle] }
  else
    match _known : graph.targets? name with
    | none => found
    | some targets =>
      let walked := targets.foldl (fun s target => search graph (path ++ [name]) target s) found
      { walked with finished := name :: walked.finished }
termination_by graph.unvisited path
decreasing_by exact unvisited_append_lt _known _fresh

end ReferenceGraph

namespace Schema

def cycles (schema : Schema) : List SchemaError :=
  let graph := ReferenceGraph.ofSchema schema
  let start : ReferenceGraph.Search := ⟨[], []⟩
  (schema.entries.foldl (fun s entry => graph.search [] entry.name s) start).errors

end Schema

end WireSchema
