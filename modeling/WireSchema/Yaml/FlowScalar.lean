import WireSchema.Text
import WireSchema.Yaml.Cursor

/-! Scalars that may run on over several lines, plain or in quotes. -/

namespace WireSchema.Yaml

/-- The white space between two characters of a scalar: within a line, or from one line to another,
where the first line break may be absent because it was escaped. -/
inductive Gap where
  | inLine (text : List Char)
  | lines (first? : Option Char) (others : List Char)

namespace Gap

def empty : Gap := .inLine []

def isEmpty : Gap → Bool
  | .inLine [] => true
  | _ => false

def leavesLine : Gap → Bool
  | .inLine _ => false
  | .lines .. => true

def push (gap : Gap) (c : Char) : Gap :=
  match gap with
  | .inLine text => .inLine (text ++ [c])
  | .lines first? others => .lines first? others

def pushBreak (gap : Gap) (c : Char) : Gap :=
  match gap with
  | .inLine _ => .lines (some c) []
  | .lines first? others => .lines first? (others ++ [c])

def text : Gap → List Char
  | .inLine text => text
  | .lines (some '\n') [] => [' ']
  | .lines (some '\n') others => others
  | .lines first? others => first?.toList ++ others

end Gap

namespace FlowScalar

structure Partial where
  value : List Char
  gap : Gap

namespace Partial

def empty : Partial := ⟨[], .empty⟩

def filled (part : Partial) : List Char := part.gap.text.reverse ++ part.value

def push (part : Partial) (c : Char) : Partial := ⟨c :: part.filled, .empty⟩

def pushSpace (part : Partial) (c : Char) : Partial := ⟨part.value, part.gap.push c⟩

def pushBreak (part : Partial) (c : Char) : Partial := ⟨part.value, part.gap.pushBreak c⟩

def leaveLine (part : Partial) : Partial := ⟨part.filled, .lines none []⟩

def text (part : Partial) : String := .ofList part.filled.reverse

end Partial

def plainEnds (flow : Bool) (indent : Nat) (part : Partial) (here : Position) (c : Char)
    (rest : List Char) : Bool :=
  (!part.gap.isEmpty && ((!flow && here.column < indent) || c == '#' ||
    (here.column == 0 && isBoundary (c :: rest)))) ||
  (c == ':' && atGap rest) || (flow && isAnyOf ",[]\x7b\x7d" c)

/-- In a flow collection a colon cannot stand right before another indicator. -/
def isStrayColon (flow : Bool) (c : Char) (rest : List Char) : Bool :=
  flow && c == ':' && (rest.head?.map fun next => isAnyOf ",?[]\x7b\x7d" next).getD false

/-- The rest of a plain scalar, and the place where it and the white space behind it end. Outside
of flow collections a further line has at least `indent` spaces in front. -/
def plain? (flow : Bool) (indent : Nat) (part : Partial) (here : Position) :
    List Char → Option (Partial × Cursor)
  | [] => some (part, ⟨[], here⟩)
  | c :: rest =>
    if isGap c then
      if part.gap.leavesLine && here.column < indent && c == '\t' then none
      else plain? flow indent (part.pushSpace c) (here.next c) rest
    else if isBreak c then plain? flow indent (part.pushBreak c) (here.next c) rest
    else if isStrayColon flow c rest then none
    else if plainEnds flow indent part here c rest then some (part, ⟨c :: rest, here⟩)
    else plain? flow indent (part.push c) (here.next c) rest

def singleQuoted? (part : Partial) (here : Position) : List Char → Option (String × Cursor)
  | [] => none
  | '\'' :: '\'' :: rest =>
    singleQuoted? (part.push '\'') ((here.next '\'').next '\'') rest
  | '\'' :: rest => some (part.text, ⟨rest, here.next '\''⟩)
  | c :: rest =>
    if isGap c then singleQuoted? (part.pushSpace c) (here.next c) rest
    else if isBreak c then singleQuoted? (part.pushBreak c) (here.next c) rest
    else if here.column == 0 && isBoundary (c :: rest) then none
    else singleQuoted? (part.push c) (here.next c) rest

def escaped? : Char → Option Char
  | '0' => some '\x00'
  | 'a' => some '\x07'
  | 'b' => some '\x08'
  | 't' | '\t' => some '\t'
  | 'n' => some '\n'
  | 'v' => some '\x0b'
  | 'f' => some '\x0c'
  | 'r' => some '\r'
  | 'e' => some '\x1b'
  | ' ' => some ' '
  | '"' => some '"'
  | '/' => some '/'
  | '\\' => some '\\'
  | 'N' => some '\u0085'
  | '_' => some '\u00a0'
  | 'L' => some '\u2028'
  | 'P' => some '\u2029'
  | _ => none

def byCodePoint? (digits : List Char) : Option Char := do
  let n ← digits.foldlM (fun n c => (Text.hexValue? c).map (16 * n + ·)) 0
  if n.isValidChar then some (.ofNat n) else none

def doubleQuoted? (part : Partial) (here : Position) : List Char → Option (String × Cursor)
  | [] => none
  | '"' :: rest => some (part.text, ⟨rest, here.next '"'⟩)
  | '\\' :: 'x' :: a :: b :: rest => do
    let c ← byCodePoint? [a, b]
    doubleQuoted? (part.push c) (['\\', 'x', a, b].foldl .next here) rest
  | '\\' :: 'u' :: a :: b :: c :: d :: rest => do
    let found ← byCodePoint? [a, b, c, d]
    doubleQuoted? (part.push found) (['\\', 'u', a, b, c, d].foldl .next here) rest
  | '\\' :: 'U' :: a :: b :: c :: d :: e :: f :: g :: h :: rest => do
    let found ← byCodePoint? [a, b, c, d, e, f, g, h]
    doubleQuoted? (part.push found) (['\\', 'U', a, b, c, d, e, f, g, h].foldl .next here) rest
  | '\\' :: c :: rest =>
    if isBreak c then doubleQuoted? part.leaveLine ((here.next '\\').next c) rest
    else do
      let found ← escaped? c
      doubleQuoted? (part.push found) ((here.next '\\').next c) rest
  | c :: rest =>
    if isGap c then doubleQuoted? (part.pushSpace c) (here.next c) rest
    else if isBreak c then doubleQuoted? (part.pushBreak c) (here.next c) rest
    else if here.column == 0 && isBoundary (c :: rest) then none
    else doubleQuoted? (part.push c) (here.next c) rest

end FlowScalar

end WireSchema.Yaml
