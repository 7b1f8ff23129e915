import WireSchema.Text

/-! The tokens of a table, and what a list of them begins with. -/

namespace WireSchema

inductive Bracket where
  | round
  | square
  | curly
  deriving DecidableEq, Repr

/-- A literal by its value, as far as a table can use it. A number with a point or an exponent is
kept as it is written. -/
inductive Literal where
  | string (value : String)
  | integer (value : Nat) (suffix : String)
  | float (text : String)
  | other
  deriving DecidableEq, Repr

/-- A word that is marked as one, so that it may be spelled like a keyword, keeps its mark `r#`.
A mark is joint if another mark follows at once. -/
inductive TokenTree where
  | word (text : String)
  | mark (char : Char) (joint : Bool)
  | literal (value : Literal)
  | group (bracket : Bracket) (body : List TokenTree)
  deriving Repr

namespace TokenTree

mutual

def size : TokenTree → Nat
  | .group _ body => bodySize body + 1
  | _ => 1

def bodySize : List TokenTree → Nat
  | [] => 0
  | token :: rest => token.size + bodySize rest

end

end TokenTree

namespace Token

def startsMarks : List Char → List TokenTree → Bool
  | [], _ => true
  | [c], .mark found _ :: _ => found = c
  | c :: more, .mark found joint :: rest => found = c && joint && startsMarks more rest
  | _, _ => false

def atMark (mark : String) (tokens : List TokenTree) : Bool := startsMarks mark.toList tokens

def atWord (word : String) : List TokenTree → Bool
  | .word found :: _ => found = word
  | _ => false

def atAnyWord : List TokenTree → Bool
  | .word _ :: _ => true
  | _ => false

def isName (word : String) : Bool := word != "_" && !reservedWords.contains word

def atName : List TokenTree → Bool
  | .word found :: _ => isName found
  | _ => false

def atLifetime : List TokenTree → Bool
  | .mark '\'' true :: .word _ :: _ => true
  | _ => false

def atLiteral : List TokenTree → Bool
  | .literal _ :: _ => true
  | .mark '-' _ :: .literal (.integer ..) :: _ | .mark '-' _ :: .literal (.float _) :: _ => true
  | .word word :: _ => word = "true" || word = "false"
  | _ => false

def atGroup (bracket : Bracket) : List TokenTree → Bool
  | .group found _ :: _ => found = bracket
  | _ => false

/-- The tokens behind the first one; a lifetime counts as one. -/
def behind (tokens : List TokenTree) : List TokenTree :=
  tokens.drop (if atLifetime tokens then 2 else 1)

end Token

end WireSchema
