import WireSchema.Table.Expression.Pattern

/-! Expressions that hold blocks: conditions, loops, matches and blocks themselves. -/

namespace WireSchema.Table.Expression

open Token Parse

def conditional (g : Grammar) : Parse Unit := repeatWhile do
  keyword "if"
  discard (g.expression false)
  g.block false
  if !(← acceptWord "else") then return false
  let tokens ← peek
  if atWord "if" tokens then return true
  if !atGroup .curly tokens then missing [.keyword "if", .group .curly]
  g.block false
  return false

def whileLoop (g : Grammar) : Parse Unit := do
  keyword "while"
  discard (g.expression false)
  g.block true

def forLoop (g : Grammar) : Parse Unit := do
  keyword "for"
  discard (alternatives g)
  keyword "in"
  discard (g.expression false)
  g.block true

def endlessLoop (g : Grammar) : Parse Unit := do
  keyword "loop"
  g.block true

/-- A case of a match. Behind it stands a comma, unless it ends with a block or is the last. -/
def case (g : Grammar) : Parse Unit := do
  discard g.attributes
  discard (alternatives g)
  if ← acceptWord "if" then discard (g.expression true)
  mark "=>"
  let body ← g.bounded
  if body.kind != .block && !(← peek).isEmpty then mark "," else discard (acceptMark ",")

def matching (g : Grammar) : Parse Unit := do
  keyword "match"
  discard (g.expression false)
  group .curly do
    g.innerAttributes
    repeatWhile do
      if (← peek).isEmpty then return false
      case g
      return true

def labelled (g : Grammar) : Parse Unit := do
  lifetime
  mark ":"
  let tokens ← peek
  if atWord "while" tokens then whileLoop g
  else if atWord "for" tokens then forLoop g
  else if atWord "loop" tokens then endlessLoop g
  else if atGroup .curly tokens then g.block true
  else missing [.loopOrBlock]

def atBoundClosure (tokens : List TokenTree) : Bool :=
  atWord "for" tokens && atMark "<" (tokens.drop 1) &&
    (atLifetime (tokens.drop 2) || atMark ">" (tokens.drop 2))

def blockLike? (g : Grammar) : Parse Bool := do
  let tokens ← peek
  if atWord "if" tokens then conditional g
  else if atWord "while" tokens then whileLoop g
  else if atWord "for" tokens && !atBoundClosure tokens then forLoop g
  else if atWord "loop" tokens then endlessLoop g
  else if atWord "match" tokens then matching g
  else if atWord "try" tokens && atGroup .curly (tokens.drop 1) then
    skip 1
    g.block false
  else if atWord "unsafe" tokens || (atWord "const" tokens && atGroup .curly (tokens.drop 1)) then
    skip 1
    g.block true
  else if atGroup .curly tokens then g.block true
  else if atLifetime tokens then labelled g
  else return false
  return true

end WireSchema.Table.Expression
