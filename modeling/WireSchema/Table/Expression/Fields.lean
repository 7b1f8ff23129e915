import WireSchema.Table.Expression.Generics

/-! Declarations of types by their fields or their variants. -/

namespace WireSchema.Table.Expression

open Token Parse

def visibility : Parse Bool := do
  if !(← acceptWord "pub") then return false
  match ← peek with
  | .group .round (.word "in" :: _) :: _ =>
    group .round do
      skip 1
      discard plainPath
  | .group .round [.word word] :: rest =>
    if ["crate", "self", "super"].contains word then advance rest
  | _ => pure ()
  return true

def assigned (g : Grammar) : Parse Unit := do
  if ← acceptMark "=" then discard (g.expression true)

def fieldsUpTo (g : Grammar) : Nat → Parse Unit
  | 0 => missing [.identifier]
  | fuel + 1 => group .curly <| commaList do
    discard g.attributes
    discard visibility
    let unnamed ← acceptWord "_"
    if !unnamed then discard identifier
    mark ":"
    let tokens ← peek
    if unnamed && (atWord "struct" tokens ||
        (atWord "union" tokens && atGroup .curly (tokens.drop 1))) then
      skip 1
      fieldsUpTo g fuel
    else discard (g.type true)

def namedFields (g : Grammar) : Parse Unit := do
  fieldsUpTo g (TokenTree.bodySize (← peek) + 1)

def numberedFields (g : Grammar) : Parse Unit :=
  group .round <| commaList do
    discard g.attributes
    discard visibility
    discard (g.type true)

/-- A type made of fields. Conditions stand behind fields in parentheses, or in front of others. -/
def structDeclaration (g : Grammar) : Parse Unit := do
  discard identifier
  generics g
  let found ← conditions g
  let tokens ← peek
  if atGroup .curly tokens then namedFields g
  else if !found && atGroup .round tokens then
    numberedFields g
    let found ← conditions g
    let expected := if found then [] else [Expected.keyword "where"]
    if !(← acceptMark ";") then missing (expected ++ [.mark ";"])
  else
    let expected := if found then [] else [.keyword "where", .group .round]
    if !(← acceptMark ";") then missing (expected ++ [.group .curly, .mark ";"])

def variant (g : Grammar) : Parse Unit := do
  discard g.attributes
  discard visibility
  discard identifier
  let tokens ← peek
  if atGroup .curly tokens then namedFields g
  else if atGroup .round tokens then numberedFields g
  assigned g

def enumeration (g : Grammar) : Parse Unit := do
  discard identifier
  generics g
  discard (conditions g)
  group .curly (commaList (variant g))

def union (g : Grammar) : Parse Unit := do
  discard identifier
  generics g
  discard (conditions g)
  namedFields g

end WireSchema.Table.Expression
