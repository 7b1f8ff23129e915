import WireSchema.Table.Expression.Control
import WireSchema.Table.Expression.Operand
import WireSchema.Table.Expression.Trailer

/-! Expressions without operators around them. -/

namespace WireSchema.Table.Expression

open Token Parse

def startsClosure (tokens : List TokenTree) : Bool :=
  let rest := tokens.drop 1
  atMark "|" tokens || atWord "move" tokens || atBoundClosure tokens ||
    (atWord "const" tokens && !atGroup .curly rest) || atWord "static" tokens ||
    (atWord "async" tokens && (atMark "|" rest || atWord "move" rest))

def closureParameter (g : Grammar) : Parse Unit := do
  discard g.attributes
  discard g.pattern
  if ← acceptMark ":" then discard (g.type true)

def closure (g : Grammar) (braces : Bool) : Parse Shape := do
  discard (binder g)
  for word in ["const", "static", "async", "move"] do
    discard (acceptWord word)
  mark "|"
  repeatWhile do
    if ← sees (atMark "|") then return false
    closureParameter g
    if ← sees (atMark "|") then return false
    mark ","
    return true
  mark "|"
  if ← acceptMark "->" then
    discard (g.type true)
    g.block false
    return ⟨.other, true⟩
  else return ⟨.other, (← g.expression braces).closed⟩

def fieldValue (g : Grammar) : Parse Unit := do
  discard g.attributes
  let named ← member
  if !named || (← sees (atMark ":")) then
    mark ":"
    discard (g.expression true)

/-- Fields between braces. Behind two points comes the value that the others are taken from. -/
def fieldValues (g : Grammar) : Parse Unit := repeatWhile do
  if (← peek).isEmpty then return false
  if ← acceptMark ".." then
    if !(← peek).isEmpty then discard (g.expression true)
    return false
  fieldValue g
  if (← peek).isEmpty then return false
  mark ","
  return true

def named (g : Grammar) (braces : Bool) : Parse Shape := do
  let path ← qualifiedPath g true
  let tokens ← peek
  if !path.qualified && path.plain && atMark "!" tokens && !atMark "!=" tokens then
    skip 1
    let inBraces ← delimited
    return ⟨.invocation inBraces, inBraces⟩
  if braces && atGroup .curly tokens then
    group .curly (fieldValues g)
    return ⟨.other, true⟩
  return .plain

def listContent (g : Grammar) : Parse Unit := do
  if (← peek).isEmpty then return
  discard (g.expression true)
  let tokens ← peek
  if tokens.isEmpty then return
  if ← acceptMark "," then commaList (discard (g.expression true))
  else if ← acceptMark ";" then discard (g.expression true)
  else missing [.mark ",", .mark ";"]

def optionalValue (g : Grammar) (braces : Bool) : Parse Shape := do
  let tokens ← peek
  if startsValue tokens && (braces || !atGroup .curly tokens) then
    return ⟨.other, (← g.expression true).closed⟩
  return .plain

/-- Leaving a loop. A label with a colon behind it would begin another loop. -/
def leaving (g : Grammar) (braces : Bool) : Parse Shape := do
  let tokens ← peek
  if atLifetime tokens && atMark ":" (behind tokens) then
    discard (g.expression true)
    throw .labelledBreak
  discard acceptLifetime
  optionalValue g braces

def binding (g : Grammar) (braces : Bool) : Parse Shape := do
  discard (alternatives g)
  mark "="
  let value ← g.unary braces
  return ⟨.other, (← g.operators braces .compare value).closed⟩

def builtIn : Parse Shape := do
  skip 1
  mark "#"
  discard identifier
  group .round (do advance [])
  return .plain

def atom (g : Grammar) (braces : Bool) : Parse Shape := do
  let tokens ← peek
  let rest := tokens.drop 1
  if atLiteral tokens then return ⟨.literal (← literal), false⟩
  if atWord "async" tokens &&
      (atGroup .curly rest || (atWord "move" rest && atGroup .curly (rest.drop 1))) then
    skip 1
    discard (acceptWord "move")
    g.block false
    return ⟨.other, true⟩
  if startsClosure tokens then closure g braces
  else if atWord "builtin" tokens && atMark "#" rest then builtIn
  else if startsPath tokens || (atWord "try" tokens && (atMark "!" rest || atMark "::" rest)) then
    named g braces
  else if atGroup .round tokens then
    arguments g
    return .plain
  else if atGroup .square tokens then
    group .square (listContent g)
    return .plain
  else if ← acceptWord "break" then leaving g braces
  else if ← acceptWord "continue" then
    discard acceptLifetime
    return .plain
  else if (← acceptWord "return") || (← acceptWord "yield") then optionalValue g true
  else if ← acceptWord "become" then return ⟨.other, (← g.expression true).closed⟩
  else if ← acceptWord "let" then binding g braces
  else if ← blockLike? g then return .block
  else if atMark ".." tokens then range g braces
  else if ← acceptWord "_" then return .plain
  else missing [.expression]

def unary (g : Grammar) (braces : Bool) : Parse Shape := do
  let attributed ← g.attributes
  if ← acceptMark "&" then
    let tokens ← peek
    let access := tokens.drop 1
    if atWord "raw" tokens && (atWord "mut" access || atWord "const" access) then skip 2
    else discard (acceptWord "mut")
    return ⟨.other, (← g.unary braces).closed⟩
  if ["*", "!", "-"].any (atMark · (← peek)) then
    skip 1
    return ⟨.other, (← g.unary braces).closed⟩
  let value ← trailers g (← atom g braces)
  if attributed && value.kind = .range then throw .attributedRange
  return value

def expression (g : Grammar) (braces : Bool) : Parse Shape := do
  operators g braces .start (← unary g braces)

/-- An expression as a statement: a block in front ends it, unless a point or a question mark
follows. -/
def bounded (g : Grammar) : Parse Shape := do
  discard g.attributes
  if ← blockLike? g then
    let tokens ← peek
    if (atMark "." tokens && !atMark ".." tokens) || atMark "?" tokens then
      operators g true .start (← trailers g .block)
    else return .block
  else operators g true .start (← unary g true)

end WireSchema.Table.Expression
