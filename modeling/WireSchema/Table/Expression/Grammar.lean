import WireSchema.Table.Expression.Operator
import WireSchema.Table.Parse

/-! Expressions are read only to find out whether they are any, and where they end. -/

namespace WireSchema.Table.Expression

open Token Parse

/-- What an expression is, as far as that decides what may follow it. -/
inductive Kind where
  | literal (value : Literal)
  | range
  | comparison
  | block
  | invocation (braces : Bool)
  | other
  deriving DecidableEq, Repr

structure Shape where
  kind : Kind
  closed : Bool
  deriving DecidableEq, Repr

namespace Shape

def plain : Shape := ⟨.other, false⟩

def block : Shape := ⟨.block, true⟩

end Shape

/-- A name is a path of one word, perhaps with arguments in angle brackets; a bound can be one of
several that are added up. -/
inductive TypeShape where
  | name
  | path
  | bound
  | parenthesized
  | other
  deriving DecidableEq, Repr

inductive BoundShape where
  | trait
  | lifetime
  | capture
  deriving DecidableEq, Repr

inductive PatternShape where
  | openRange
  | other
  deriving DecidableEq, Repr

/-- The readers that others are built from. -/
structure Grammar where
  /-- An expression; braces behind a path may belong to it. -/
  expression : (braces : Bool) → Parse Shape
  unary : (braces : Bool) → Parse Shape
  /-- An expression that a block at its front ends, as in a statement. -/
  bounded : Parse Shape
  operators : (braces : Bool) → Precedence → Shape → Parse Shape
  type : (sum : Bool) → Parse TypeShape
  bound : (capture const : Bool) → Parse BoundShape
  pattern : Parse PatternShape
  block : (inner : Bool) → Parse Unit
  declaration : Parse Unit
  attributes : Parse Bool
  innerAttributes : Parse Unit

namespace Grammar

/-- The grammar of nothing: it is reached only beyond the depth of any expression. -/
def empty : Grammar where
  expression _ := missing [.expression]
  unary _ := missing [.expression]
  bounded := missing [.expression]
  operators _ _ _ := missing [.expression]
  type _ := missing [.expression]
  bound _ _ := missing [.expression]
  pattern := missing [.expression]
  block _ := missing [.expression]
  declaration := missing [.expression]
  attributes := missing [.expression]
  innerAttributes := missing [.expression]

end Grammar

def literal : Parse Literal := do
  match ← peek with
  | .literal value :: rest => advance rest; return value
  | .word _ :: rest => advance rest; return .other
  | tokens => advance (tokens.drop 2); return .other

def fieldNumber (negative : Bool) (value : Nat) (suffix : String) : Parse Unit := do
  if !suffix.isEmpty then throw .suffixedInteger
  if negative then throw .lengthNegative
  if 1 <<< 32 ≤ value then throw .lengthTooLarge

def member : Parse Bool := do
  match ← peek with
  | .mark '-' _ :: .literal (.integer value suffix) :: rest =>
    fieldNumber true value suffix
    advance rest
    return false
  | .literal (.integer value suffix) :: rest =>
    fieldNumber false value suffix
    advance rest
    return false
  | tokens =>
    if atName tokens then skip 1 else missing [.identifier, .integer]
    return true

end WireSchema.Table.Expression
