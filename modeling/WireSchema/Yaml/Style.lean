import WireSchema.Text
import WireSchema.Yaml.Cursor
import WireSchema.Yaml.Resolution

/-! How a text is written as a scalar. -/

namespace WireSchema.Yaml

inductive Style where
  | plain
  | singleQuoted
  | doubleQuoted
  | literal
  deriving DecidableEq, Repr

def isPrintable (c : Char) : Bool :=
  let n := c.toNat
  n == 10 || (0x20 ≤ n && n ≤ 0x7E) || (0xA0 ≤ n && n != 0xFEFF && n != 0xFFFE && n != 0xFFFF)

def hasPair (first second : Char → Bool) : List Char → Bool
  | a :: b :: rest => (first a && second b) || hasPair first second (b :: rest)
  | _ => false

def isSpace (c : Char) : Bool := c == ' '

/-- Whether a plain text would be taken for something else because of how it begins. -/
def startsLikeIndicator : List Char → Bool
  | [] => false
  | c :: rest =>
    isAnyOf "#,[]\x7b\x7d&*!|>'\"%@`" c || ((c == '?' || c == ':' || c == '-') && atGap rest) ||
      ['-', '-', '-'].isPrefixOf (c :: rest) || ['.', '.', '.'].isPrefixOf (c :: rest)

def holdsIndicator : List Char → Bool
  | [] => false
  | [_] => false
  | before :: c :: rest =>
    (c == ':' && atGap rest) || (c == '#' && isGapOrBreak before) || holdsIndicator (c :: rest)

namespace Style

def endsWith (p : Char → Bool) (cs : List Char) : Bool := (cs.getLast?.map p).getD false

def startsWith (p : Char → Bool) (cs : List Char) : Bool := (cs.head?.map p).getD false

def allowsQuotes (cs : List Char) : Bool :=
  cs.all isPrintable && !hasPair isSpace isBreak cs && !hasPair isBreak isSpace cs

def allowsPlain (cs : List Char) : Bool :=
  cs.all isPrintable && !cs.any isBreak && !startsWith isSpace cs && !endsWith isSpace cs &&
    !startsLikeIndicator cs && !holdsIndicator cs

def allowsLiteral (cs : List Char) : Bool :=
  cs.all isPrintable && !hasPair isSpace isBreak cs && !endsWith isSpace cs

def ofText (text : String) : Style :=
  let cs := text.toList
  if cs.contains '\n' then if allowsLiteral cs then .literal else .doubleQuoted
  else if allowsPlain cs && !isSpecial text then .plain
  else if allowsQuotes cs then .singleQuoted
  else .doubleQuoted

end Style

def upperHexDigit (n : Nat) : Char := (Text.hexDigit n).toUpper

def upperHex (width n : Nat) : List Char :=
  (List.range width).reverse.map fun i => upperHexDigit (n >>> (4 * i) % 16)

def escape (c : Char) : List Char :=
  match c with
  | '\x00' => "\\0".toList
  | '\x07' => "\\a".toList
  | '\x08' => "\\b".toList
  | '\t' => "\\t".toList
  | '\n' => "\\n".toList
  | '\x0b' => "\\v".toList
  | '\x0c' => "\\f".toList
  | '\r' => "\\r".toList
  | '\x1b' => "\\e".toList
  | '"' => "\\\"".toList
  | '\\' => "\\\\".toList
  | '\u0085' => "\\N".toList
  | '\u2028' => "\\L".toList
  | '\u2029' => "\\P".toList
  | c =>
    let n := c.toNat
    if isPrintable c then [c]
    else if n ≤ 0xFF then "\\x".toList ++ upperHex 2 n
    else if n ≤ 0xFFFF then "\\u".toList ++ upperHex 4 n
    else "\\U".toList ++ upperHex 8 n

def spaces (n : Nat) : List Char := List.replicate n ' '

def singleQuotedBody (indent : Nat) (lineStart : Bool) : List Char → List Char
  | [] => if lineStart then spaces indent else []
  | c :: rest =>
    if isBreak c then c :: singleQuotedBody indent true rest
    else
      (if lineStart then spaces indent else []) ++ (if c = '\'' then ['\'', '\''] else [c]) ++
        singleQuotedBody indent false rest

def literalBody (indent : Nat) (lineStart : Bool) : List Char → List Char
  | [] => if lineStart then [] else ['\n']
  | c :: rest =>
    if isBreak c then c :: literalBody indent true rest
    else (if lineStart then spaces indent else []) ++ c :: literalBody indent false rest

def indentStep : Nat := 2

/-- What stands behind the bar of a literal block: the depth of indentation if the text does not
show it, and which line breaks at the end belong to the text. -/
def literalHints (cs : List Char) : List Char :=
  (if Style.startsWith (fun c => isSpace c || isBreak c) cs then (toString indentStep).toList
    else []) ++
  match cs.reverse with
  | [] => ['-']
  | [last] => if isBreak last then ['+'] else ['-']
  | last :: before :: _ =>
    if !isBreak last then ['-'] else if isBreak before then ['+'] else []

def scalarText (indent : Nat) (text : String) : List Char :=
  let cs := text.toList
  match Style.ofText text with
  | .plain => cs ++ ['\n']
  | .singleQuoted => '\'' :: singleQuotedBody indent false cs ++ "'\n".toList
  | .doubleQuoted => '"' :: cs.flatMap escape ++ "\"\n".toList
  | .literal => '|' :: literalHints cs ++ '\n' :: literalBody indent true cs

end WireSchema.Yaml
