import WireSchema.Table.Expression.Grammar

/-! Paths: words with double colons between them, and the arguments of generic ones. -/

namespace WireSchema.Table.Expression

open Token Parse

inductive PathArguments where
  | absent
  | angle (any : Bool)
  | round
  deriving DecidableEq, Repr

structure PathShape where
  qualified : Bool
  rooted : Bool
  segments : Nat
  last : PathArguments
  plain : Bool
  deriving DecidableEq, Repr

namespace PathShape

def typeShape (path : PathShape) : TypeShape :=
  if path.qualified then .other
  else if !path.rooted && path.segments = 1 && path.last != .round then .name
  else .path

def push (path : PathShape) (last : PathArguments) : PathShape :=
  { path with
    segments := path.segments + 1, last := last, plain := path.plain && last = .absent }

end PathShape

def atPathWord (tokens : List TokenTree) : Bool :=
  atName tokens || ["super", "self", "Self", "crate"].any (atWord · tokens)

def constant (g : Grammar) : Parse Unit := do
  if ← sees atLiteral then discard literal else g.block true

def atConstant (tokens : List TokenTree) : Bool := atLiteral tokens || atGroup .curly tokens

def associatedBounds (g : Grammar) : Parse Unit := repeatWhile do
  if ← sees fun tokens => atMark "," tokens || atMark ">" tokens then return false
  discard (g.bound false true)
  acceptMark "+"

def genericArgument (g : Grammar) : Parse Unit := do
  let tokens ← peek
  if atLifetime tokens && !atMark "+" (behind tokens) then lifetime
  else if atConstant tokens then constant g
  else if (← g.type true) = .name then
    if ← acceptMark "=" then
      if ← sees atConstant then constant g else discard (g.type true)
    else if ← acceptMark ":" then associatedBounds g

def angleArguments (g : Grammar) : Parse PathArguments := do
  mark "<"
  let any := !atMark ">" (← peek)
  repeatWhile do
    if ← sees (atMark ">") then return false
    genericArgument g
    if ← sees (atMark ">") then return false
    mark ","
    return true
  mark ">"
  return .angle any

/-- A word of a path and its arguments. In an expression a double colon stands before these. -/
def segment (g : Grammar) (inExpression : Bool) : Parse PathArguments := do
  let tokens ← peek
  if ["super", "self", "crate", "try"].any (atWord · tokens) then
    skip 1
    return .absent
  if atWord "Self" tokens then skip 1 else discard identifier
  let tokens ← peek
  if atMark "::" tokens && atMark "<" (tokens.drop 2) then
    skip 2
    angleArguments g
  else if !inExpression && atMark "<" tokens && !atMark "<=" tokens && !atMark "<<=" tokens then
    angleArguments g
  else return .absent

/-- Further segments; a group in parentheses behind a double colon is left alone. -/
def moreSegments (g : Grammar) (inExpression : Bool) (path : PathShape) : Parse PathShape :=
  grow path fun path => do
    let tokens ← peek
    if atMark "::" tokens && !atGroup .round (tokens.drop 2) then
      skip 2
      return some (path.push (← segment g inExpression))
    else return none

def path (g : Grammar) (inExpression : Bool) : Parse PathShape := do
  let rooted ← acceptMark "::"
  let first ← segment g inExpression
  moreSegments g inExpression ⟨false, rooted, 1, first, first = .absent⟩

def qualifiedPath (g : Grammar) (inExpression : Bool) : Parse PathShape := do
  if ← acceptMark "<" then
    discard (g.type true)
    if ← acceptWord "as" then discard (path g false)
    mark ">"
    mark "::"
    let first ← segment g inExpression
    grow ⟨true, false, 1, first, false⟩ fun path => do
      if ← acceptMark "::" then return some (path.push (← segment g inExpression))
      else return none
  else path g inExpression

/-- The types of arguments in parentheses and of a result. A path may go on behind them unless the
result is a type without parentheses. -/
def roundArguments (g : Grammar) : Parse Bool := do
  group .round (commaList (discard (g.type true)))
  if ← acceptMark "->" then return (← g.type false) = .parenthesized
  return true

def atRoundArguments (tokens : List TokenTree) : Bool :=
  atGroup .round tokens || (atMark "::" tokens && atGroup .round (tokens.drop 2))

def PathArguments.isEmpty : PathArguments → Bool
  | .absent | .angle false => true
  | _ => false

def typePath (g : Grammar) : Parse PathShape := do
  grow (← qualifiedPath g false) fun path => do
    if path.last.isEmpty && (← sees atRoundArguments) then
      discard (acceptMark "::")
      let goesOn ← roundArguments g
      let path := { path with last := .round, plain := false }
      if goesOn then return some (← moreSegments g false path) else return some path
    else return none

def isPathWord (word : String) : Bool :=
  ["super", "self", "Self", "crate"].contains word || isName word

def words : Nat → Parse (List String)
  | 0 => missing [.identifier]
  | fuel + 1 => do
    match ← peek with
    | .word word :: rest =>
      if !isPathWord word then throw (.keyword word)
      advance rest
      if !(← acceptMark "::") then return [word]
      match ← peek with
      | .word next :: _ =>
        if isPathWord next then return word :: (← words fuel) else missing [.pathSegment]
      | _ => missing [.pathSegment]
    | _ => missing [.identifier]

def plainPath : Parse (Bool × List String) := do
  let rooted ← acceptMark "::"
  return (rooted, ← words ((← peek).length + 1))

def plainWords? : Nat → List TokenTree → Option (List TokenTree)
  | 0, _ => none
  | fuel + 1, tokens =>
    if atPathWord tokens then
      let rest := tokens.drop 1
      if atMark "::" rest then plainWords? fuel (rest.drop 2) else some rest
    else none

def afterPlainPath? (tokens : List TokenTree) : Option (List TokenTree) :=
  let words := if atMark "::" tokens then tokens.drop 2 else tokens
  plainWords? (words.length + 1) words

end WireSchema.Table.Expression
