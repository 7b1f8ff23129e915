import WireSchema.Token.Basic

/-! Operators between two expressions, and how tightly they bind. -/

namespace WireSchema.Table.Expression

open Token

/-- From the loosest to the tightest. -/
inductive Precedence where
  | start
  | assign
  | range
  | or
  | and
  | compare
  | bitOr
  | bitXor
  | bitAnd
  | shift
  | sum
  | product
  | cast
  deriving DecidableEq, Repr

namespace Precedence

def rank : Precedence → Nat
  | .start => 0
  | .assign => 1
  | .range => 2
  | .or => 3
  | .and => 4
  | .compare => 5
  | .bitOr => 6
  | .bitXor => 7
  | .bitAnd => 8
  | .shift => 9
  | .sum => 10
  | .product => 11
  | .cast => 12

def atLeast (precedence least : Precedence) : Bool := least.rank ≤ precedence.rank

end Precedence

/-- The operators of two operands; one that begins with another comes before it. -/
def binaryOperators : List (String × Precedence) :=
  [("+=", .assign), ("-=", .assign), ("*=", .assign), ("/=", .assign), ("%=", .assign),
    ("^=", .assign), ("&=", .assign), ("|=", .assign), ("<<=", .assign), (">>=", .assign),
    ("&&", .and), ("||", .or), ("<<", .shift), (">>", .shift), ("==", .compare),
    ("<=", .compare), ("!=", .compare), (">=", .compare), ("+", .sum), ("-", .sum),
    ("*", .product), ("/", .product), ("%", .product), ("^", .bitXor), ("&", .bitAnd),
    ("|", .bitOr), ("<", .compare), (">", .compare)]

def binaryOperator? (tokens : List TokenTree) : Option (String × Precedence) :=
  binaryOperators.find? fun (text, _) => atMark text tokens

def atAssignment (tokens : List TokenTree) : Bool := atMark "=" tokens && !atMark "=>" tokens

def nextPrecedence (tokens : List TokenTree) : Precedence :=
  match binaryOperator? tokens with
  | some (_, precedence) => precedence
  | none =>
    if atAssignment tokens then .assign
    else if atMark ".." tokens then .range
    else if atWord "as" tokens then .cast
    else .start

def endsRange (braces : Bool) (tokens : List TokenTree) : Bool :=
  tokens.isEmpty || (atMark "." tokens && !atMark ".." tokens) ||
    (!braces && atGroup .curly tokens) || atWord "as" tokens ||
    [",", ";", "?", "=>", "=", "+", "/", "%", "^", ">", "<=", "!=", "-=", "*=", "&=", "|=",
      "<<="].any fun text => atMark text tokens

def startsValue (tokens : List TokenTree) : Bool :=
  (atAnyWord tokens && !atWord "as" tokens) || atLiteral tokens || atLifetime tokens ||
    [Bracket.round, .square, .curly].any (atGroup · tokens) ||
    (atMark "!" tokens && !atMark "!=" tokens) ||
    (atMark "-" tokens && !atMark "-=" tokens && !atMark "->" tokens) ||
    (atMark "*" tokens && !atMark "*=" tokens) ||
    (atMark "|" tokens && !atMark "|=" tokens) ||
    (atMark "&" tokens && !atMark "&=" tokens) || atMark ".." tokens ||
    (atMark "<" tokens && !atMark "<=" tokens && !atMark "<<=" tokens) ||
    atMark "::" tokens || atMark "#" tokens

end WireSchema.Table.Expression
