/-! The characters that YAML tells apart, and places in a text. -/

namespace WireSchema.Yaml

def isAllowed (c : Char) : Bool :=
  let n := c.toNat
  n == 9 || n == 10 || n == 13 || (0x20 ≤ n && n ≤ 0x7E) || n == 0x85 ||
    (0xA0 ≤ n && n ≤ 0xFFFD) || 0x10000 ≤ n

def isBreak (c : Char) : Bool :=
  let n := c.toNat
  n == 10 || n == 13 || n == 0x85 || n == 0x2028 || n == 0x2029

def isGap (c : Char) : Bool := c == ' ' || c == '\t'

def isGapOrBreak (c : Char) : Bool := isGap c || isBreak c

def isAnyOf (marks : String) (c : Char) : Bool := marks.toList.contains c

def isNameChar (c : Char) : Bool := c.isAlphanum || c == '_' || c == '-'

def atGap : List Char → Bool
  | [] => true
  | c :: _ => isGapOrBreak c

/-- Three hyphens or three dots that stand alone; at the start of a line they mark where a document
begins or ends. -/
def isBoundary : List Char → Bool
  | '-' :: '-' :: '-' :: rest | '.' :: '.' :: '.' :: rest => atGap rest
  | _ => false

structure Position where
  line : Nat
  column : Nat
  offset : Nat
  deriving DecidableEq, Repr

namespace Position

def start : Position := ⟨0, 0, 0⟩

def next (here : Position) (c : Char) : Position :=
  if isBreak c then ⟨here.line + 1, 0, here.offset + 1⟩
  else ⟨here.line, here.column + 1, here.offset + 1⟩

end Position

structure Cursor where
  rest : List Char
  here : Position

namespace Cursor

def skip (cursor : Cursor) (n : Nat) : Cursor :=
  ⟨cursor.rest.drop n, (cursor.rest.take n).foldl Position.next cursor.here⟩

def skipWhile (cursor : Cursor) (p : Char → Bool) : Cursor :=
  cursor.skip (cursor.rest.takeWhile p).length

end Cursor

end WireSchema.Yaml
