import WireSchema.Yaml.Lexer
import WireSchema.Yaml.Tree

/-! Reading a text that holds one document, without pairs that stand bare in a flow list. -/

namespace WireSchema.Yaml

namespace Parse

/-- The tokens still to be read, the latest number of each anchor, the nodes with these numbers, and
the abbreviations of tags. -/
structure State where
  tokens : List Token
  anchors : List (String × Nat)
  nodes : List (Nat × Tree)
  handles : List (String × Octets)

end Parse

abbrev Parse := StateT Parse.State Option

namespace Parse

def peek : Parse (Option Token) := do return (← get).tokens.head?

def advance : Parse Unit :=
  modify fun s => { s with tokens := s.tokens.drop 1 }

def accept (token : Token) : Parse Bool := do
  if (← peek) = some token then advance; return true
  return false

def expect (token : Token) : Parse Unit := do
  if !(← accept token) then failure

def isNext (tokens : List Token) : Parse Bool := do
  return ((← peek).map tokens.contains).getD false

def addDirective : Directive → List (String × Octets) → Option (List (String × Octets))
  | .version major minor, handles =>
    if major = 1 && (minor = 1 || minor = 2) then some handles else none
  | .tag handle full, handles =>
    if (handles.lookup handle).isSome then none else some ((handle, full) :: handles)

def directives : Nat → Bool → List (String × Octets) → Parse (List (String × Octets))
  | 0, _, handles => return handles
  | fuel + 1, versioned, handles => do
    match ← peek with
    | some (.directive content) =>
      let isVersion := match content with
        | .version .. => true
        | .tag .. => false
      if versioned && isVersion then failure
      advance
      directives fuel (versioned || isVersion) (← addDirective content handles)
    | _ => return handles

def defaultHandles : List (String × Octets) :=
  [("!", octets "!"), ("!!", octets "tag:yaml.org,2002:")]

def fullTag (tag : Tag) : Parse Octets := do
  if tag.handle.isEmpty then return tag.suffix
  let full ← (← get).handles.lookup tag.handle
  return full ++ tag.suffix

def properties : Parse (Option String × Option Octets) := do
  match (← get).tokens with
  | .anchor name :: .tag tag :: _ | .tag tag :: .anchor name :: _ =>
    advance; advance
    return (some name, some (← fullTag tag))
  | .anchor name :: _ => advance; return (some name, none)
  | .tag tag :: _ => advance; return (none, some (← fullTag tag))
  | _ => return (none, none)

/-- The number of an anchor, which no node has until the one with the anchor begins. -/
def number (name : String) : Parse Nat := do
  let s ← get
  let number := s.anchors.length
  set { s with
    anchors := (name, number) :: s.anchors.filter (·.1 != name)
    nodes := s.nodes.filter (·.1 != number) }
  return number

/-- Gives a node its number, unless a node inside it has the number already. -/
def remember (number : Nat) (tree : Tree) : Parse Unit :=
  modify fun s =>
    if (s.nodes.lookup number).isSome then s else { s with nodes := (number, tree) :: s.nodes }

mutual

/-- A node. In a flow collection it is no block; the value in a block mapping may be a list whose
hyphens stand at the column of the keys. -/
def node : Nat → Bool → Bool → Parse Tree
  | 0, _, _ => failure
  | fuel + 1, block, level => do
    match ← peek with
    | some (.alias name) =>
      advance
      return .alias (← (← get).anchors.lookup name)
    | _ =>
      let (anchor?, tag?) ← properties
      let number? ← anchor?.mapM number
      let found ← content fuel block level (anchor?.isSome || tag?.isSome) tag?
      number?.forM fun number => remember number found
      return found

def content : Nat → Bool → Bool → Bool → Option Octets → Parse Tree
  | 0, _, _, _, _ => failure
  | fuel + 1, block, level, optional, tag? => do
    match ← peek with
    | some (.scalar text plain) => advance; return .scalar text plain tag?
    | some .openList => advance; return .list (← flowItems fuel true)
    | some .openMapping => advance; return .mapping (← flowPairs fuel true)
    | some .hyphen =>
      if level then return .list (← levelItems fuel)
      else if optional then return .scalar "" true tag?
      else failure
    | some .blockList =>
      if block then advance; return .list (← blockItems fuel)
      else if optional then return .scalar "" true tag?
      else failure
    | some .blockMapping =>
      if block then advance; return .mapping (← blockPairs fuel)
      else if optional then return .scalar "" true tag?
      else failure
    | _ => if optional then return .scalar "" true tag? else failure

def nodeBefore : Nat → Bool → Bool → List Token → Parse Tree
  | 0, _, _, _ => failure
  | fuel + 1, block, level, ends => do
    if ← isNext ends then return .blank
    node fuel block level

def blockItems : Nat → Parse (List Tree)
  | 0 => failure
  | fuel + 1 => do
    if ← accept .blockEnd then return []
    expect .hyphen
    let item ← nodeBefore fuel true false [.hyphen, .blockEnd]
    return item :: (← blockItems fuel)

def levelItems : Nat → Parse (List Tree)
  | 0 => failure
  | fuel + 1 => do
    if !(← accept .hyphen) then return []
    let item ← nodeBefore fuel true false [.hyphen, .key, .value, .blockEnd]
    return item :: (← levelItems fuel)

def blockPairs : Nat → Parse (List (Tree × Tree))
  | 0 => failure
  | fuel + 1 => do
    if ← accept .blockEnd then return []
    expect .key
    let key ← nodeBefore fuel true true [.key, .value, .blockEnd]
    let value ←
      if ← accept .value then nodeBefore fuel true true [.key, .value, .blockEnd]
      else pure .blank
    return (key, value) :: (← blockPairs fuel)

def flowItems : Nat → Bool → Parse (List Tree)
  | 0, _ => failure
  | fuel + 1, first => do
    if ← accept .closeList then return []
    if !first then expect .comma
    if !first && (← accept .closeList) then return []
    let item ← node fuel false false
    return item :: (← flowItems fuel false)

def flowPairs : Nat → Bool → Parse (List (Tree × Tree))
  | 0, _ => failure
  | fuel + 1, first => do
    if ← accept .closeMapping then return []
    if !first then expect .comma
    if !first && (← accept .closeMapping) then return []
    if ← accept .key then
      let key ← nodeBefore fuel false false [.value, .comma, .closeMapping]
      let value ←
        if ← accept .value then nodeBefore fuel false false [.comma, .closeMapping]
        else pure .blank
      return (key, value) :: (← flowPairs fuel false)
    else
      let key ← node fuel false false
      return (key, .blank) :: (← flowPairs fuel false)

end

def passDocumentEnds : Nat → Parse Unit
  | 0 => return
  | fuel + 1 => do
    if ← accept .documentEnd then passDocumentEnds fuel

/-- The one document of a text. Nothing may follow it but marks of its end. -/
def document (fuel : Nat) : Parse Tree := do
  let length := (← get).tokens.length
  let handles ← directives fuel false []
  let anyDirective := decide ((← get).tokens.length < length)
  modify fun s => { s with handles := handles ++ defaultHandles }
  let explicit ← accept .documentStart
  if anyDirective && !explicit then failure
  let root ←
    if (← peek).isNone then pure .blank
    else if explicit then nodeBefore fuel true false [.documentStart, .documentEnd]
    else node fuel true false
  passDocumentEnds fuel
  if (← peek).isSome then failure
  return root

end Parse

def unifyBreaks : List Char → List Char
  | '\r' :: '\n' :: rest => '\n' :: unifyBreaks rest
  | '\r' :: rest | '\u0085' :: rest => '\n' :: unifyBreaks rest
  | c :: rest => c :: unifyBreaks rest
  | [] => []

def parse (text : String) : Option Node := do
  let cs := text.toList
  if !cs.all isAllowed then none
  else
    let tokens ← tokens? (unifyBreaks cs)
    let (root, s) ← (Parse.document (4 * tokens.length + 4)).run ⟨tokens, [], [], []⟩
    root.resolve? s.nodes

end WireSchema.Yaml
