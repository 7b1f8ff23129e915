import WireSchema.Table.Expression.Member

/-! Declarations in a block: functions, types, constants, imports and what groups them. -/

namespace WireSchema.Table.Expression

open Token Parse

def staticVariable (g : Grammar) : Parse Unit := do
  discard (acceptWord "mut")
  discard identifier
  if ← acceptMark "=" then discard (g.expression true)
  else
    mark ":"
    discard (g.type true)
    if ← sees (atMark ";") then pure ()
    else
      mark "="
      discard (g.expression true)
  mark ";"

/-- A path that is imported, or several in braces, which may begin with a double colon where none
stands further in front. -/
def importTree (fuel : Nat) (mayRoot : Bool) : Parse Unit := do
  match fuel with
  | 0 => missing [.identifier]
  | fuel + 1 =>
    let tokens ← peek
    let words := ["self", "super", "crate", "try"]
    if atName tokens || words.any (atWord · tokens) then
      skip 1
      if ← acceptMark "::" then importTree fuel false
      else if ← acceptWord "as" then
        if ← sees (fun tokens => atName tokens || atWord "_" tokens) then skip 1
        else missing [.identifier, .underscore]
    else if ← acceptMark "*" then return
    else if atGroup .curly tokens then
      group .curly <| commaList do
        let rooted ← if mayRoot then acceptMark "::" else pure false
        importTree fuel (mayRoot && !rooted)
    else missing ([.identifier] ++ words.map .keyword ++ [.mark "*", .group .curly])

def imports : Parse Unit := do
  let rooted ← acceptMark "::"
  importTree (TokenTree.bodySize (← peek) + 1) !rooted
  mark ";"

def members (g : Grammar) (member : Parse Unit) : Parse Unit :=
  group .curly do
    g.innerAttributes
    repeatWhile do
      if (← peek).isEmpty then return false
      member
      return true

def traitBody (g : Grammar) : Parse Unit := do
  if ← acceptMark ":" then
    boundsBefore g fun tokens => atWord "where" tokens || atGroup .curly tokens
  discard (conditions g)
  members g (traitMember g)

def trait (g : Grammar) : Parse Unit := do
  discard identifier
  generics g
  let tokens ← peek
  if atGroup .curly tokens || atMark ":" tokens || atWord "where" tokens then traitBody g
  else if ← acceptMark "=" then
    boundsBefore g fun tokens => atWord "where" tokens || atMark ";" tokens
    discard (conditions g)
    mark ";"
  else missing [.group .curly, .mark ":", .keyword "where", .mark "="]

def markedTrait (g : Grammar) : Parse Unit := do
  discard (acceptWord "unsafe")
  discard (acceptWord "auto")
  keyword "trait"
  discard identifier
  generics g
  traitBody g

def implementationBlock (g : Grammar) : Parse Unit := do
  discard (acceptWord "default")
  discard (acceptWord "unsafe")
  keyword "impl"
  if ← sees startsGenerics then generics g
  let tokens ← peek
  if atMark "?" tokens && atWord "const" (tokens.drop 1) then skip 2
  else discard (acceptWord "const")
  let tokens ← peek
  let negative := atMark "!" tokens && !atGroup .curly (tokens.drop 1)
  if negative then skip 1
  discard (g.type true)
  if ← acceptWord "for" then discard (g.type true)
  else if negative then throw .negativeWithoutTrait
  discard (conditions g)
  members g (implementationMember g)

def nestedModule (g : Grammar) : Parse Unit := do
  discard (acceptWord "unsafe")
  keyword "mod"
  if !(← acceptWord "try") then discard identifier
  let tokens ← peek
  if atGroup .curly tokens then
    members g do
      discard g.attributes
      g.declaration
  else if !(← acceptMark ";") then missing [.mark ";", .group .curly]

def foreignBlock (g : Grammar) (visible : Bool) : Parse Unit := do
  if visible then throw (.missing [.keyword "extern"] false)
  discard (acceptWord "unsafe")
  if !(← convention) then missing [.keyword "extern"]
  members g (foreignMember g)

def external (g : Grammar) (visible : Bool) : Parse Unit := do
  let rest := (← peek).drop 1
  if atWord "crate" rest then
    skip 2
    if !(← acceptWord "self") then discard identifier
    if ← acceptWord "as" then
      if !(← acceptWord "_") then discard identifier
    mark ";"
  else if atGroup .curly rest then foreignBlock g visible
  else match rest with
    | .literal (.string _) :: more =>
      if atGroup .curly more then foreignBlock g visible
      else
        advance more
        missing [.group .curly]
    | _ =>
      advance rest
      missing [.keyword "crate", .group .curly, .stringLiteral]

def invocationRule : Parse Unit := do
  discard identifier
  let tokens ← peek
  let given := atGroup .round tokens
  if given then skip 1
  if ← sees (atGroup .curly) then skip 1
  else missing ((if given then [] else [.group .round]) ++ [.group .curly])

def unsafeDeclaration (g : Grammar) (visible : Bool) : Parse Unit := do
  let rest := (← peek).drop 1
  if atWord "trait" rest || (atWord "auto" rest && atWord "trait" (rest.drop 1)) then markedTrait g
  else if atWord "impl" rest then implementationBlock g
  else if atWord "extern" rest then foreignBlock g visible
  else if atWord "mod" rest then nestedModule g
  else
    skip 1
    missingWord ["trait", "auto", "impl", "extern", "mod"] []

def declarationStarts : List String :=
  ["fn", "extern", "use", "static", "const", "unsafe", "mod", "type", "struct", "enum", "union",
    "trait", "auto", "impl", "default", "macro"]

def declaration (g : Grammar) : Parse Unit := do
  let visible ← visibility
  let tokens ← peek
  let rest := tokens.drop 1
  if startsFunction false tokens then
    signature g false
    body g
  else if atWord "extern" tokens then external g visible
  else if ← acceptWord "use" then imports
  else if ← acceptWord "static" then staticVariable g
  else if ← acceptWord "const" then constantDeclaration g
  else if atWord "unsafe" tokens then unsafeDeclaration g visible
  else if atWord "mod" tokens then nestedModule g
  else if atWord "type" tokens then typeDeclaration g true false
  else if ← acceptWord "struct" then structDeclaration g
  else if ← acceptWord "enum" then enumeration g
  else if atWord "union" tokens && atName rest then
    skip 1
    union g
  else if ← acceptWord "trait" then trait g
  else if atWord "auto" tokens && atWord "trait" rest then markedTrait g
  else if atWord "impl" tokens || (atWord "default" tokens && !atMark "!" rest) then
    implementationBlock g
  else if ← acceptWord "macro" then invocationRule
  else otherwise (!visible) declarationStarts

end WireSchema.Table.Expression
