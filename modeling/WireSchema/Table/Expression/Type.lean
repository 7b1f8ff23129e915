import WireSchema.Table.Expression.Path

/-! Types, and the bounds on them. -/

namespace WireSchema.Table.Expression

open Token Parse

def binder (g : Grammar) : Parse Bool := do
  if !(← acceptWord "for") then return false
  mark "<"
  repeatWhile do
    if ← sees (atMark ">") then return false
    discard g.attributes
    lifetime
    if ← sees (atMark ">") then return false
    mark ","
    return true
  mark ">"
  return true

def traitBound (g : Grammar) (const : Bool) : Parse Unit := do
  let bound ← binder g
  if ← sees (atGroup .square) then
    group .square (keyword "const")
    if !const then throw (.constNotAllowed true)
  else if ← acceptWord "const" then
    if !const then throw (.constNotAllowed false)
  let question ← acceptMark "?"
  let bound ← if !bound && question then binder g else pure bound
  let path ← path g false
  if path.last.isEmpty && (← sees atRoundArguments) then
    discard (acceptMark "::")
    discard (roundArguments g)
  if bound && question then throw .binderWithQuestion

def captures : Parse Unit := do
  mark "<"
  repeatWhile do
    let tokens ← peek
    if atLifetime tokens then lifetime
    else if atName tokens || atWord "Self" tokens then skip 1
    else if atMark ">" tokens then return false
    else missing [.lifetime, .identifier, .mark ">"]
    if ← acceptMark "," then return true
    if ← sees (atMark ">") then return false
    missing [.mark ",", .mark ">"]
  mark ">"

def bound (g : Grammar) (capture const : Bool) : Parse BoundShape := do
  if ← acceptLifetime then return .lifetime
  else if ← acceptWord "use" then
    captures
    if capture then return .capture else throw .captureNotAllowed
  else if ← sees (atGroup .round) then
    group .round (traitBound g const)
    return .trait
  else
    traitBound g const
    return .trait

def startsBound (tokens : List TokenTree) : Bool :=
  atAnyWord tokens || atMark "::" tokens || atMark "?" tokens || atLifetime tokens ||
    atGroup .round tokens

def bounds (g : Grammar) (sum capture const : Bool) : Parse (List BoundShape) := do
  let first ← bound g capture const
  grow [first] fun found => do
    if sum && (← acceptMark "+") then
      let tokens ← peek
      if startsBound tokens || (const && atGroup .square tokens) then
        return some (found ++ [← bound g capture const])
      else return none
    else return none

def object (g : Grammar) (sum : Bool) : Parse Unit := do
  if !(← bounds g sum false false).contains .trait then throw .noTraitInObject

def implementation (g : Grammar) (sum : Bool) : Parse Unit := do
  if !(← bounds g sum true true).contains .trait then throw .noTraitInBounds

def addedBounds (g : Grammar) : Parse Unit := repeatWhile do
  if ← acceptMark "+" then
    discard (bound g false false)
    return true
  else return false

/-- What stands between parentheses: nothing or several types, a bound with a question mark, or one
type, which is answered as a path if it can be a bound. -/
def roundContent (g : Grammar) : Parse TypeShape := do
  let tokens ← peek
  if tokens.isEmpty then return .other
  if atLifetime tokens then
    object g true
    return .parenthesized
  if atMark "?" tokens then
    traitBound g false
    return .bound
  let first ← g.type true
  if ← sees (atMark ",") then
    mark ","
    commaList (discard (g.type true))
    return .other
  return if first = .other || first = .parenthesized then .parenthesized else .path

def roundType (g : Grammar) (sum : Bool) : Parse TypeShape := do
  let shape ← group .round (roundContent g)
  if shape = .bound || (shape = .path && sum && (← sees (atMark "+"))) then
    addedBounds g
    return .other
  return if shape = .path then .parenthesized else shape

def parameter (g : Grammar) (first : Bool) : Parse Unit := do
  let tokens ← peek
  let changes := first && atWord "mut" tokens && atWord "self" (tokens.drop 1)
  if changes then skip 1
  let before ← peek
  let names := atName before || atWord "_" before || (first && atWord "self" before)
  let rest := before.drop 1
  if names && atMark ":" rest && !atMark "::" rest then
    skip 2
    let tokens ← peek
    if first && !atWord "self" before && atWord "mut" tokens && atWord "self" (tokens.drop 1) then
      skip 2
    else discard (g.type true)
  else if changes then keyword "self"
  else discard (g.type true)

def atVariadic (tokens : List TokenTree) : Bool :=
  atMark "..." tokens ||
    ((atName tokens || atWord "_" tokens) && atMark ":" (tokens.drop 1) &&
      atMark "..." (tokens.drop 2))

def convention : Parse Bool := do
  if !(← acceptWord "extern") then return false
  match ← peek with
  | .literal (.string _) :: rest => advance rest
  | _ => pure ()
  return true

def functionType (g : Grammar) : Parse TypeShape := do
  discard (acceptWord "unsafe")
  discard convention
  keyword "fn"
  group .round do
    discard <| grow true fun first => do
      if (← peek).isEmpty then return none
      discard g.attributes
      if ← sees atVariadic then
        if !(← sees (atMark "...")) then skip 2
        mark "..."
        discard (acceptMark ",")
        return none
      parameter g first
      if (← peek).isEmpty then return none
      mark ","
      return some false
  if ← acceptMark "->" then discard (g.type false)
  return .other

def typeStarts : List Expected :=
  [.keyword "for", .group .round, .keyword "fn", .keyword "unsafe", .keyword "extern",
    .identifier, .mark "::", .mark "<", .keyword "dyn", .group .square, .mark "*", .mark "&",
    .mark "!", .keyword "impl", .keyword "_", .lifetime]

def boundTypeStarts : List Expected :=
  [.identifier, .keyword "fn", .keyword "unsafe", .keyword "extern", .keyword "super",
    .keyword "self", .keyword "Self", .keyword "crate"]

def startsPath (tokens : List TokenTree) : Bool :=
  atPathWord tokens || atMark "::" tokens || atMark "<" tokens

def namedType (g : Grammar) (sum binds : Bool) : Parse TypeShape := do
  let path ← typePath g
  if path.qualified then return .other
  let tokens ← peek
  if path.plain && atMark "!" tokens && !atMark "!=" tokens then
    skip 1
    discard delimited
    return .other
  if sum && atMark "+" tokens then
    repeatWhile do
      if !(← acceptMark "+") then return false
      if !(← sees startsBound) then return false
      discard (bound g false false)
      return true
    return .other
  return if binds then .bound else path.typeShape

def pointer (g : Grammar) : Parse TypeShape := do
  let const ← acceptWord "const"
  if !const then
    if !(← acceptWord "mut") then missing [.keyword "const", .keyword "mut"]
  discard (g.type false)
  return .other

def type (g : Grammar) (sum : Bool) : Parse TypeShape := do
  let binds ← binder g
  let tokens ← peek
  let function := ["fn", "unsafe", "extern"].any (atWord · tokens)
  if binds && !function && !atPathWord tokens then missing boundTypeStarts
  if atGroup .round tokens then roundType g sum
  else if function then functionType g
  else if startsPath tokens then namedType g sum binds
  else if ← acceptWord "dyn" then
    discard (acceptMark "*")
    object g sum
    return .other
  else if atGroup .square tokens then
    group .square do
      discard (g.type true)
      if ← acceptMark ";" then discard (g.expression true)
    return .other
  else if ← acceptMark "*" then pointer g
  else if ← acceptMark "&" then
    discard acceptLifetime
    discard (acceptWord "mut")
    discard (g.type false)
    return .other
  else if ← acceptMark "!" then return .other
  else if ← acceptWord "impl" then
    implementation g sum
    return .other
  else if ← acceptWord "_" then return .other
  else if atLifetime tokens then
    object g true
    return .other
  else missing typeStarts

end WireSchema.Table.Expression
