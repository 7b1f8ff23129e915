import WireSchema.Table.Expression.Generics
import WireSchema.Table.Expression.Pattern

/-! The head of a function: its marks, its name, its parameters and its result. -/

namespace WireSchema.Table.Expression

open Token Parse

def dropWord (word : String) (tokens : List TokenTree) : List TokenTree :=
  if atWord word tokens then tokens.drop 1 else tokens

def dropConvention (tokens : List TokenTree) : List TokenTree :=
  if atWord "extern" tokens then
    match tokens.drop 1 with
    | .literal (.string _) :: rest => rest
    | rest => rest
  else tokens

def startsFunction (safe : Bool) (tokens : List TokenTree) : Bool :=
  let marked := dropWord "async" (dropWord "const" tokens)
  let rest := if safe && atWord "safe" marked then marked.drop 1 else dropWord "unsafe" marked
  atWord "fn" (dropConvention rest)

def receiver (g : Grammar) : Parse Unit := do
  let referred ← acceptMark "&"
  if referred then discard acceptLifetime
  discard (acceptWord "mut")
  keyword "self"
  if !referred && (← acceptMark ":") then discard (g.type true)

/-- A parameter with its type, or a type alone if that is generic; whether it stands for any number
of parameters. -/
def typedParameter (g : Grammar) : Parse Bool := do
  let tokens ← peek
  if !(atName tokens && atMark "<" (tokens.drop 1)) then
    discard g.pattern
    mark ":"
    if ← acceptMark "..." then return true
  discard (g.type true)
  return false

inductive ParameterState where
  | start
  | received
  | typed
  | receivedTyped
  deriving DecidableEq, Repr

namespace ParameterState

def receive : ParameterState → Parse ParameterState
  | .start => return .received
  | .typed => throw .receiverNotFirst
  | .received | .receivedTyped => throw .receiverTwice

def add : ParameterState → ParameterState
  | .start | .typed => .typed
  | .received | .receivedTyped => .receivedTyped

end ParameterState

def parameter? (g : Grammar) (state : ParameterState) : Parse (Option ParameterState) := do
  discard g.attributes
  if ← acceptMark "..." then return none
  if ← attempt (receiver g) then return some (← state.receive)
  if ← typedParameter g then return none
  return some state.add

def parameters (g : Grammar) : Parse Unit := do
  discard <| grow ParameterState.start fun state => do
    if (← peek).isEmpty then return none
    let next ← parameter? g state
    if (← peek).isEmpty then return none
    mark ","
    return next

def signature (g : Grammar) (safe : Bool) : Parse Unit := do
  discard (acceptWord "const")
  discard (acceptWord "async")
  if !(← acceptWord "unsafe") && safe then discard (acceptWord "safe")
  discard convention
  keyword "fn"
  discard identifier
  generics g
  group .round (parameters g)
  if ← acceptMark "->" then discard (g.type true)
  discard (conditions g)

end WireSchema.Table.Expression
