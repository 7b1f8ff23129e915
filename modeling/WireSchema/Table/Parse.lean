import WireSchema.Table.Error
import WireSchema.Token.Basic

/-! Reading tokens from left to right; the first fault ends the reading. -/

namespace WireSchema.Table

open Token

/-- The tokens still to be read in the current group, and the first group so far that was left
before its end. -/
structure Remaining where
  tokens : List TokenTree
  leftOver : Option Bracket

abbrev Parse := StateT Remaining (Except TableError)

namespace Parse

def peek : Parse (List TokenTree) := do return (← get).tokens

def advance (tokens : List TokenTree) : Parse Unit :=
  modify fun s => { s with tokens := tokens }

def sees (test : List TokenTree → Bool) : Parse Bool := do return test (← peek)

def skip (n : Nat) : Parse Unit := do advance ((← peek).drop n)

def missing {α : Type} (expected : List Expected) : Parse α := do
  throw (.missing expected (← peek).isEmpty)

/-- Marks without a gap; of more joined ones the first are taken. -/
def mark (text : String) : Parse Unit := do
  if ← sees (atMark text) then skip text.length else throw (.missingMark text)

def keyword (word : String) : Parse Unit := do
  if ← sees (atWord word) then skip 1 else missing [.keyword word]

def acceptMark (text : String) : Parse Bool := do
  let found ← sees (atMark text)
  if found then skip text.length
  return found

def acceptWord (word : String) : Parse Bool := do
  let found ← sees (atWord word)
  if found then skip 1
  return found

def identifier : Parse String := do
  match ← peek with
  | .word name :: rest =>
    if !isName name then throw (.keyword name)
    advance rest
    return name
  | _ => missing [.identifier]

def stringLiteral : Parse String := do
  match ← peek with
  | .literal (.string value) :: rest => advance rest; return value
  | _ => missing [.stringLiteral]

/-- Reads a group with `inside`. What `inside` leaves over is noted if nothing was before. -/
def group {α : Type} (bracket : Bracket) (inside : Parse α) : Parse α := do
  match ← peek with
  | .group found body :: rest =>
    if found = bracket then
      advance body
      let value ← inside
      modify fun s =>
        ⟨rest, s.leftOver <|> if s.tokens.isEmpty then none else some bracket⟩
      return value
    else missing [.group bracket]
  | _ => missing [.group bracket]

def attempt (read : Parse Unit) : Parse Bool :=
  tryCatch (do read; return true) fun _ => return false

def repeatUpTo (step : Parse Bool) : Nat → Parse Unit
  | 0 => return
  | fuel + 1 => do
    if ← step then repeatUpTo step fuel

def repeatWhile (step : Parse Bool) : Parse Unit := do
  repeatUpTo step ((← peek).length + 1)

def growUpTo {α : Type} (step : α → Parse (Option α)) : Nat → α → Parse α
  | 0, value => return value
  | fuel + 1, value => do
    match ← step value with
    | some next => growUpTo step fuel next
    | none => return value

def grow {α : Type} (value : α) (step : α → Parse (Option α)) : Parse α := do
  growUpTo step ((← peek).length + 1) value

def commaList (item : Parse Unit) : Parse Unit := repeatWhile do
  if (← peek).isEmpty then return false
  item
  if (← peek).isEmpty then return false
  mark ","
  return true

def delimited : Parse Bool := do
  match ← peek with
  | .group bracket _ :: rest => advance rest; return bracket = .curly
  | _ => missing [.delimiter]

def lifetime : Parse Unit := do
  if ← sees atLifetime then skip 2 else missing [.lifetime]

def acceptLifetime : Parse Bool := do
  let found ← sees atLifetime
  if found then skip 2
  return found

end Parse

end WireSchema.Table
