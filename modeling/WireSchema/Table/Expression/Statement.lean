import WireSchema.Table.Expression.Control

/-! Statements in braces. -/

namespace WireSchema.Table.Expression

open Token Parse

/-- A variable, its type and its value. Where a block follows in case the pattern does not match,
the value may not end with a brace. -/
def localVariable (g : Grammar) : Parse Unit := do
  keyword "let"
  discard g.pattern
  if ← acceptMark ":" then discard (g.type true)
  if ← acceptMark "=" then
    let value ← g.expression true
    if !value.closed && (← acceptWord "else") then g.block false
  mark ";"

def declarationWords : List String :=
  ["pub", "extern", "use", "fn", "mod", "type", "struct", "enum", "trait", "impl", "macro"]

def startsDeclaration (tokens : List TokenTree) : Bool :=
  let rest := tokens.drop 1
  let third := behind rest
  let functionWord (tokens : List TokenTree) : Bool :=
    ["unsafe", "extern", "fn"].any (atWord · tokens)
  declarationWords.any (atWord · tokens) ||
    (atWord "crate" tokens && !atMark "::" rest) ||
    (atWord "static" tokens && (atWord "mut" rest || atName rest)) ||
    (atWord "const" tokens && !(atGroup .curly rest || atWord "static" rest ||
      (atWord "async" rest && !functionWord third) || atWord "move" rest || atMark "|" rest)) ||
    (atWord "unsafe" tokens && !atGroup .curly rest) ||
    (atWord "async" tokens && functionWord rest) ||
    (atWord "union" tokens && atName rest) ||
    (atWord "auto" tokens && atWord "trait" rest) ||
    (atWord "default" tokens && (atWord "unsafe" rest || atWord "impl" rest))

def startsNamedInvocation (tokens : List TokenTree) : Bool :=
  match afterPlainPath? tokens with
  | some rest => atMark "!" rest && (atName (rest.drop 1) || atWord "try" (rest.drop 1))
  | none => false

def bracedInvocation? (tokens : List TokenTree) : Option (List TokenTree) := do
  let rest ← afterPlainPath? tokens
  let third := rest.drop 2
  if atMark "!" rest && atGroup .curly (rest.drop 1) &&
      !((atMark "." third && !atMark ".." third) || atMark "?" third) then some third
  else none

def statement (g : Grammar) : Parse Bool := do
  discard g.attributes
  let tokens ← peek
  match bracedInvocation? tokens with
  | some rest =>
    advance rest
    discard (acceptMark ";")
    return false
  | none =>
    if atWord "let" tokens then
      localVariable g
      return false
    if startsDeclaration tokens || startsNamedInvocation tokens then
      g.declaration
      return false
    let value ← g.bounded
    if ← acceptMark ";" then return false
    match value.kind with
    | .block | .invocation true => return false
    | _ => return true

def statements (g : Grammar) : Parse Unit := repeatWhile do
  if ← acceptMark ";" then return true
  if (← peek).isEmpty then return false
  let unfinished ← statement g
  if (← peek).isEmpty then return false
  if unfinished then throw .missingSemicolon
  return true

def block (g : Grammar) (inner : Bool) : Parse Unit :=
  group .curly do
    if inner then g.innerAttributes
    statements g

end WireSchema.Table.Expression
