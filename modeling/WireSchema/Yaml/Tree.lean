/-! The values of YAML, and documents as they are written, with aliases for some of them. -/

namespace WireSchema.Yaml

abbrev Octets := List UInt8

def octets (text : String) : Octets := text.toUTF8.toList

/-- A plain scalar is written without quotes on its own line, and only it can stand for the
absence of a value. -/
inductive Node where
  | scalar (text : String) (plain : Bool) (tag? : Option Octets)
  | list (items : List Node)
  | mapping (pairs : List (String × Node))

namespace Node

def text (text : String) : Node := .scalar text false none

end Node

inductive Tree where
  | scalar (text : String) (plain : Bool) (tag? : Option Octets)
  | list (items : List Tree)
  | mapping (pairs : List (Tree × Tree))
  | alias (anchor : Nat)

namespace Tree

def blank : Tree := .scalar "" true none

mutual

/-- One for a scalar or an alias, and one for each end of a collection. -/
def size : Tree → Nat
  | .scalar .. | .alias _ => 1
  | .list items => itemsSize items + 2
  | .mapping pairs => pairsSize pairs + 2

def itemsSize : List Tree → Nat
  | [] => 0
  | item :: rest => item.size + itemsSize rest

def pairsSize : List (Tree × Tree) → Nat
  | [] => 0
  | (key, value) :: rest => key.size + value.size + pairsSize rest

end

abbrev Expand := StateT Nat Option

def spend : Expand Unit := do
  match ← get with
  | 0 => failure
  | left + 1 => set left

def keyText : Node → Expand String
  | .scalar text _ _ => return text
  | _ => failure

mutual

def replace (find : Nat → Expand Node) : Tree → Expand Node
  | .scalar text plain tag? => return .scalar text plain tag?
  | .list items => return .list (← replaceItems find items)
  | .mapping pairs => return .mapping (← replacePairs find pairs)
  | .alias anchor => find anchor

def replaceItems (find : Nat → Expand Node) : List Tree → Expand (List Node)
  | [] => return []
  | item :: rest => do
    let item ← replace find item
    return item :: (← replaceItems find rest)

def replacePairs (find : Nat → Expand Node) : List (Tree × Tree) → Expand (List (String × Node))
  | [] => return []
  | (key, value) :: rest => do
    let key ← keyText (← replace find key)
    let value ← replace find value
    return (key, value) :: (← replacePairs find rest)

end

/-- The node that an anchor names. What an alias stands for may have aliases in turn, up to `depth`
times. -/
def find (nodes : List (Nat × Tree)) : (depth anchor : Nat) → Expand Node
  | 0, _ => failure
  | depth + 1, anchor => do
    spend
    let found ← nodes.lookup anchor
    found.replace (find nodes depth)

def expand (nodes : List (Nat × Tree)) (depth : Nat) (tree : Tree) : Expand Node :=
  tree.replace (find nodes depth)

/-- The value of a document whose anchors name `nodes`. A chain of more aliases than there are nodes
goes in a circle, and more than a hundred replacements for each part of the document are refused. -/
def resolve? (nodes : List (Nat × Tree)) (tree : Tree) : Option Node := do
  let (node, _) ← (tree.expand nodes nodes.length).run (100 * tree.size)
  return node

end Tree

end WireSchema.Yaml
