/-! Characters, numerals, lines and names in texts. -/

namespace WireSchema.Text

abbrev Ranges := Array (Nat × Nat)

def Ranges.contains (ranges : Ranges) (c : Char) : Bool :=
  ranges.any fun (low, high) => low ≤ c.toNat && c.toNat ≤ high

/-- The characters with the Unicode property White_Space. -/
def isBlank (c : Char) : Bool :=
  let n := c.toNat
  (9 ≤ n && n ≤ 13) || n == 0x20 || n == 0x85 || n == 0xA0 || n == 0x1680 ||
    (0x2000 ≤ n && n ≤ 0x200A) || n == 0x2028 || n == 0x2029 || n == 0x202F || n == 0x205F ||
    n == 0x3000

def trimStart (cs : List Char) : List Char := cs.dropWhile isBlank

def trimEnd (cs : List Char) : List Char := (cs.reverse.dropWhile isBlank).reverse

def trim (cs : List Char) : List Char := trimEnd (trimStart cs)

def decimal? (cs : List Char) : Option Nat :=
  if cs.isEmpty || !cs.all Char.isDigit then none
  else some (cs.foldl (fun n c => 10 * n + (c.toNat - 48)) 0)

def hexDigit (n : Nat) : Char :=
  if n < 10 then .ofNat (n + 48) else .ofNat (n + 87)

def hexByte (byte : UInt8) : String :=
  .ofList [hexDigit (byte.toNat / 16), hexDigit (byte.toNat % 16)]

def hexNumber (n : Nat) : String :=
  .ofList (Nat.toDigits 16 n)

def hexValue? (c : Char) : Option Nat :=
  if '0' ≤ c ∧ c ≤ '9' then some (c.toNat - 48)
  else if 'a' ≤ c ∧ c ≤ 'f' then some (c.toNat - 87)
  else if 'A' ≤ c ∧ c ≤ 'F' then some (c.toNat - 55)
  else none

def dropFront? : (front text : List Char) → Option (List Char)
  | [], text => some text
  | _ :: _, [] => none
  | f :: front, c :: text => if f = c then dropFront? front text else none

def dropLast? (last : Char) (text : List Char) : Option (List Char) :=
  if text.getLast? = some last then some text.dropLast else none

def cutAt? (mark : Char) : List Char → Option (List Char × List Char)
  | [] => none
  | c :: rest =>
    if c = mark then some ([], rest)
    else (cutAt? mark rest).map fun (before, after) => (c :: before, after)

/-- The lines of a text. A line ends with a line feed, or with a carriage return and a line feed;
the last one needs neither. -/
def lines (text : List Char) : List (List Char) :=
  go (text.splitOn '\n')
where
  go : List (List Char) → List (List Char)
    | [] => []
    | [last] => if last.isEmpty then [] else [last]
    | line :: rest => (dropLast? '\r' line).getD line :: go rest

end WireSchema.Text

namespace WireSchema

def reservedWords : List String :=
  ["as", "async", "await", "box", "break", "const", "continue", "crate", "dyn", "else", "enum",
    "extern", "false", "fn", "for", "if", "impl", "in", "let", "loop", "match", "mod", "move",
    "mut", "pub", "ref", "return", "self", "Self", "static", "struct", "super", "trait", "true",
    "type", "unsafe", "use", "where", "while", "yield", "abstract", "become", "do", "final",
    "macro", "override", "priv", "try", "typeof", "unsized", "virtual"]

def isIdentifierStart (c : Char) : Bool := c == '_' || c.isAlpha

def isIdentifierRest (c : Char) : Bool := c == '_' || c.isAlphanum

/-- ASCII letters, digits and underscores, no digit in front, neither a lone underscore nor a
reserved word. -/
def isIdentifier (name : String) : Bool :=
  match name.toList with
  | [] => false
  | c :: rest =>
    isIdentifierStart c && rest.all isIdentifierRest && name != "_" &&
      !reservedWords.contains name

end WireSchema
