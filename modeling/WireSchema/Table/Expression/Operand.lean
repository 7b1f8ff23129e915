import WireSchema.Table.Expression.Pattern

/-! Operands: an operator takes to its right what is bound more tightly than by itself. -/

namespace WireSchema.Table.Expression

open Token Parse

def rightOperand (g : Grammar) (braces : Bool) (precedence : Precedence) : Parse Shape := do
  grow (← g.unary braces) fun right => do
    let tokens ← peek
    let next := nextPrecedence tokens
    if precedence.rank < next.rank || (next = .assign && precedence = .assign) then
      let wider ← g.operators braces next right
      return if (← peek).length < tokens.length then some wider else none
    else return none

def range (g : Grammar) (braces : Bool) : Parse Shape := do
  let needed ← rangeMark false
  if !needed && endsRange braces (← peek) then return ⟨.range, false⟩
  return ⟨.range, (← rightOperand g braces .range).closed⟩

def afterCast? (tokens : List TokenTree) : Option AfterCast :=
  let rest := tokens.drop 1
  if atMark "." tokens && !atMark ".." tokens then
    if atWord "await" rest then some .await
    else if atName rest && (atGroup .round (rest.drop 1) || atMark "::" (rest.drop 1)) then
      some .method
    else some .field
  else if atMark "?" tokens then some .question
  else if atGroup .square tokens then some .index
  else if atGroup .round tokens then some .call
  else none

def cast (g : Grammar) : Parse Shape := do
  skip 1
  discard (g.type false)
  match afterCast? (← peek) with
  | some what => throw (.afterCast what)
  | none => return .plain

def operators (g : Grammar) (braces : Bool) (least : Precedence) (left : Shape) : Parse Shape :=
  grow left fun left => do
    if left.kind = .range then return none
    let tokens ← peek
    match binaryOperator? tokens with
    | some (text, precedence) =>
      if !precedence.atLeast least then return none
      if precedence = .compare && left.kind = .comparison then throw .chainedComparison
      skip text.length
      let right ← rightOperand g braces precedence
      return some ⟨if precedence = .compare then .comparison else .other, right.closed⟩
    | none =>
      if Precedence.assign.atLeast least && atAssignment tokens then
        skip 1
        return some ⟨.other, (← rightOperand g braces .assign).closed⟩
      else if Precedence.range.atLeast least && atMark ".." tokens then
        return some (← range g braces)
      else if atWord "as" tokens then return some (← cast g)
      else return none

end WireSchema.Table.Expression
