import WireSchema.Table.Expression.Path
import WireSchema.Text
import WireSchema.Token.Lexer

/-! What may follow a value at once: arguments, fields, methods, indices, question marks. -/

namespace WireSchema.Table.Expression

open Token Parse

def arguments (g : Grammar) : Parse Unit := group .round (commaList (discard (g.expression true)))

def numberPart (negative : Bool) (part : List Char) : Parse Unit :=
  match tokens? (.ofList part) with
  | some [.literal (.integer value suffix)] => fieldNumber negative value suffix
  | some _ => throw (.missing [.integerLiteral] false)
  | none => throw .unreadableNumber

/-- Two fields by number look like a number with a point, and one like a number with a point behind
it; whether nothing more is needed behind the point. -/
def joinedNumbers (negative : Bool) (text : String) : Parse Bool := do
  match Text.cutAt? '.' text.toList with
  | some (whole, fraction) =>
    numberPart negative whole
    if fraction.isEmpty then return false
    numberPart false fraction
  | none => numberPart negative text.toList
  return true

def fieldNumbers : Parse Bool := do
  match ← peek with
  | .mark '-' _ :: .literal (.float text) :: rest =>
    advance rest
    joinedNumbers true text
  | .literal (.float text) :: rest =>
    advance rest
    joinedNumbers false text
  | _ => return false

def selection (g : Grammar) : Parse Unit := do
  if ← fieldNumbers then return
  if ← acceptWord "await" then return
  let named ← member
  let generic := named && atMark "::" (← peek)
  if generic then
    mark "::"
    discard (angleArguments g)
  if generic || (named && atGroup .round (← peek)) then arguments g

def trailers (g : Grammar) (value : Shape) : Parse Shape :=
  grow value fun value => do
    let tokens ← peek
    if atGroup .round tokens then
      arguments g
      return some .plain
    else if atGroup .square tokens then
      group .square (discard (g.expression true))
      return some .plain
    else if value.kind = .range then return none
    else if atMark "." tokens && !atMark ".." tokens then
      skip 1
      selection g
      return some .plain
    else if ← acceptMark "?" then return some .plain
    else return none

end WireSchema.Table.Expression
