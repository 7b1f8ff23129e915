import WireSchema.Table.Expression.Fields
import WireSchema.Table.Expression.Function

/-! Declarations inside others: what a trait, an implementation or a foreign block holds. -/

namespace WireSchema.Table.Expression

open Token Parse

/-- Fails for want of one of `words`, or of `more`; a word that comes next is not missing. -/
def missingWord {α : Type} (words : List String) (more : List Expected) : Parse α := do
  let tokens ← peek
  missing ((words.filter (!atWord · tokens)).map .keyword ++ more)

def invocation : Parse Unit := do
  discard plainPath
  mark "!"
  if ← sees (fun tokens => atName tokens || atWord "try" tokens) then skip 1
  if !(← delimited) then mark ";"

def otherwise (allowed : Bool) (words : List String) : Parse Unit := do
  let tokens ← peek
  let starts := ["self", "super", "crate"]
  if !allowed then missingWord words []
  else if atName tokens || atMark "::" tokens || starts.any (atWord · tokens) then invocation
  else missingWord words ([.identifier] ++ starts.map .keyword ++ [.mark "::"])

def constantName : Parse Unit := do
  if ← sees (fun tokens => atName tokens || atWord "_" tokens) then skip 1
  else missing [.identifier, .keyword "_"]

def constantDeclaration (g : Grammar) : Parse Unit := do
  constantName
  generics g
  mark ":"
  discard (g.type true)
  assigned g
  discard (conditions g)
  mark ";"

def typeDeclaration (g : Grammar) (before after : Bool) : Parse Unit := do
  keyword "type"
  discard identifier
  generics g
  if ← acceptMark ":" then
    boundsBefore g fun tokens => atWord "where" tokens || atMark "=" tokens || atMark ";" tokens
  let found ← if before then conditions g else pure false
  if ← acceptMark "=" then discard (g.type true)
  if after && !found then discard (conditions g)
  mark ";"

def body (g : Grammar) : Parse Unit := do
  if !(← acceptMark ";") then g.block true

def traitMember (g : Grammar) : Parse Unit := do
  discard g.attributes
  let visible ← visibility
  let marked ← acceptWord "default"
  let tokens ← peek
  let rest := tokens.drop 1
  if startsFunction false tokens ||
      (atWord "const" tokens && ["async", "unsafe", "extern", "fn"].any (atWord · rest)) then
    signature g false
    let tokens ← peek
    if atGroup .curly tokens || atMark ";" tokens then body g
    else missing [.group .curly, .mark ";"]
  else if ← acceptWord "const" then
    if !(atName rest || atWord "_" rest) then
      missing ([.identifier] ++ ["_", "async", "unsafe", "extern", "fn"].map .keyword)
    constantDeclaration g
  else if atWord "type" tokens then typeDeclaration g false true
  else otherwise (!visible && !marked) ["fn", "const", "type"]

def implementationMember (g : Grammar) : Parse Unit := do
  discard g.attributes
  let visible ← visibility
  let tokens ← peek
  let marked := atWord "default" tokens && !atMark "!" (tokens.drop 1)
  if marked then skip 1
  let tokens ← peek
  if startsFunction false tokens then
    signature g false
    body g
  else if ← acceptWord "const" then constantDeclaration g
  else if atWord "type" tokens then typeDeclaration g false true
  else
    otherwise (!visible && !marked)
      ((if marked then [] else ["default"]) ++ ["fn", "const", "type"])

def foreignMember (g : Grammar) : Parse Unit := do
  discard g.attributes
  let visible ← visibility
  let tokens ← peek
  if startsFunction true tokens then
    signature g true
    if ← sees (atGroup .curly) then g.block true else mark ";"
  else if atWord "static" tokens ||
      (["unsafe", "safe"].any (atWord · tokens) && atWord "static" (tokens.drop 1)) then
    skip (if atWord "static" tokens then 1 else 2)
    discard (acceptWord "mut")
    discard identifier
    mark ":"
    discard (g.type true)
    assigned g
    mark ";"
  else if atWord "type" tokens then typeDeclaration g true true
  else otherwise (!visible) ["fn", "static", "type"]

end WireSchema.Table.Expression
