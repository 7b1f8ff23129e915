import WireSchema.Table.Expression.Type

/-! Parameters in angle brackets, and the conditions on them. -/

namespace WireSchema.Table.Expression

open Token Parse

def lifetimesUntil (ends : List TokenTree → Bool) : Parse Unit := repeatWhile do
  if ← sees ends then return false
  lifetime
  acceptMark "+"

/-- Bounds with plus signs between them, up to what ends them; the last plus sign may end them. -/
def boundsUntil (g : Grammar) (ends : List TokenTree → Bool) : Parse Unit := repeatWhile do
  if ← sees ends then return false
  discard (g.bound false true)
  acceptMark "+"

def boundsBefore (g : Grammar) (ends : List TokenTree → Bool) : Parse Unit := repeatWhile do
  if ← sees ends then return false
  discard (g.bound false true)
  if ← sees ends then return false
  mark "+"
  return true

def endsParameter (tokens : List TokenTree) : Bool :=
  tokens.isEmpty || atMark "," tokens || atMark ">" tokens

def defaultConstant (g : Grammar) : Parse Unit := do
  if ← sees atConstant then constant g
  else if ← sees atName then skip 1
  else missing []

def genericParameter (g : Grammar) : Parse Unit := do
  discard g.attributes
  if ← acceptLifetime then
    if ← acceptMark ":" then lifetimesUntil endsParameter
  else if ← sees atName then
    skip 1
    if ← acceptMark ":" then
      boundsUntil g fun tokens => endsParameter tokens || atMark "=" tokens
    if ← acceptMark "=" then discard (g.type true)
  else if ← acceptWord "const" then
    discard identifier
    mark ":"
    discard (g.type true)
    if ← acceptMark "=" then defaultConstant g
  else if !(← acceptWord "_") then missing [.lifetime, .identifier, .keyword "const"]

def generics (g : Grammar) : Parse Unit := do
  if !(← acceptMark "<") then return
  repeatWhile do
    if ← sees (atMark ">") then return false
    genericParameter g
    if ← sees (atMark ">") then return false
    mark ","
    return true
  mark ">"

def startsGenerics (tokens : List TokenTree) : Bool :=
  let rest := tokens.drop 1
  let third := behind rest
  atMark "<" tokens && (atMark ">" rest || atMark "#" rest || atWord "const" rest ||
    ((atLifetime rest || atName rest) && (atMark ">" third || atMark "," third ||
      (atMark ":" third && !atMark "::" third) || atMark "=" third)))

def endsConditions (tokens : List TokenTree) : Bool :=
  tokens.isEmpty || atGroup .curly tokens || atMark "," tokens || atMark ";" tokens ||
    (atMark ":" tokens && !atMark "::" tokens) || atMark "=" tokens

def condition (g : Grammar) : Parse Unit := do
  let tokens ← peek
  if atLifetime tokens && atMark ":" (behind tokens) then
    lifetime
    mark ":"
    lifetimesUntil fun tokens => endsConditions tokens || atMark ":" tokens
  else
    discard (binder g)
    discard (g.type true)
    mark ":"
    boundsUntil g endsConditions

def conditions (g : Grammar) : Parse Bool := do
  if !(← acceptWord "where") then return false
  if ← sees startsGenerics then throw .genericConditions
  repeatWhile do
    if ← sees endsConditions then return false
    condition g
    acceptMark ","
  return true

end WireSchema.Table.Expression
