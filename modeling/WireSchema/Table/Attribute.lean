import WireSchema.Table.Expression.Atom
import WireSchema.Table.Expression.Declaration
import WireSchema.Table.Expression.Statement

/-! Attributes, which matter by their text if they are documentation. -/

namespace WireSchema.Table.Attribute

open Token Parse Expression

def name : Parse (Bool × List String) := do
  if ← acceptWord "unsafe" then return (false, ["unsafe"])
  plainPath

def value (g : Grammar) : Parse (Option Literal) := do
  match ← peek with
  | [.literal value] => advance []; return some value
  | tokens =>
    if atMark "#" tokens && atGroup .square (tokens.drop 1) then throw .nestedAttribute
    match (← g.expression true).kind with
    | .literal value => return some value
    | _ => return none

def content (g : Grammar) : Parse (Option String) := do
  let name ← name
  let tokens ← peek
  if atAssignment tokens && !atMark "==" tokens then
    skip 1
    match ← value g with
    | some (.string text) => return if name = (false, ["doc"]) then some text else none
    | _ => return none
  if [Bracket.round, .square, .curly].any (atGroup · tokens) then skip 1
  return none

def outer (g : Grammar) : Parse Unit := do
  mark "#"
  group .square (discard (content g))

def inner (g : Grammar) : Parse Unit := do
  mark "#"
  mark "!"
  group .square (discard (content g))

def outers (g : Grammar) : Parse Bool := do
  let any ← sees (atMark "#")
  repeatWhile do
    if !(← sees (atMark "#")) then return false
    outer g
    return true
  return any

def inners (g : Grammar) : Parse Unit := repeatWhile do
  let tokens ← peek
  if !(atMark "#" tokens && atMark "!" (tokens.drop 1)) then return false
  inner g
  return true

def deeper (g : Grammar) : Grammar where
  expression := expression g
  unary := unary g
  bounded := bounded g
  operators := operators g
  type := type g
  bound := bound g
  pattern := pattern g
  block := block g
  declaration := declaration g
  attributes := outers g
  innerAttributes := inners g

/-- A grammar for some tokens. Between two steps into the depth there is a token that is read once,
or a group that is entered. -/
def grammarFor (tokens : List TokenTree) : Grammar :=
  Nat.repeat deeper (4 * TokenTree.bodySize tokens + 4) .empty

def text : Parse (Option String) := do
  mark "#"
  group .square do content (grammarFor (← peek))

def texts : Nat → Parse (List (Option String))
  | 0 => return []
  | fuel + 1 => do
    if !(← sees (atMark "#")) then return []
    let first ← text
    return first :: (← texts fuel)

end WireSchema.Table.Attribute
