import WireSchema.Text
import WireSchema.Yaml.Cursor
import WireSchema.Yaml.Tree

/-! Tags, the directives that abbreviate them, and the tokens of YAML. -/

namespace WireSchema.Yaml

/-- What comes before the last exclamation mark of a tag, that included, and the octets of the
rest. -/
structure Tag where
  handle : String
  suffix : Octets
  deriving DecidableEq, Repr

namespace Tag

def isUriChar (verbatim : Bool) (c : Char) : Bool :=
  isNameChar c || isAnyOf ";/?:@&=+$.%!~*'()" c || (verbatim && isAnyOf ",[]" c)

def octet? (a b : Char) : Option UInt8 := do
  return .ofNat (16 * (← Text.hexValue? a) + (← Text.hexValue? b))

def trailing? (first : UInt8) : Option Nat :=
  if first < 0x80 then some 0
  else if 0xc0 ≤ first && first < 0xe0 then some 1
  else if 0xe0 ≤ first && first < 0xf0 then some 2
  else if 0xf0 ≤ first && first < 0xf8 then some 3
  else none

def stillLeft? (octet : UInt8) : Nat → Option Nat
  | 0 => trailing? octet
  | left + 1 => if 0x80 ≤ octet && octet < 0xc0 then some left else none

/-- The octets of a URI in which a percent sign and two digits stand for one octet. The octets of
one character follow each other; `left` of them are missing. -/
def octets? : Nat → List Char → Option Octets
  | 0, [] => some []
  | left, '%' :: a :: b :: rest => do
    let octet ← octet? a b
    return octet :: (← octets? (← stillLeft? octet left) rest)
  | _, '%' :: _ => none
  | 0, c :: rest => do return c.toUInt8 :: (← octets? 0 rest)
  | _ + 1, _ => none

/-- The longest run of characters of a URI: its length, and its octets up to one that is zero. -/
def uri? (verbatim : Bool) (cs : List Char) : Option (Nat × Octets) := do
  let found := cs.takeWhile (isUriChar verbatim)
  return (found.length, (← octets? 0 found).takeWhile (· != 0))

def handle? : List Char → Option (List Char)
  | '!' :: rest =>
    let name := rest.takeWhile isNameChar
    match rest.drop name.length with
    | '!' :: _ => some ('!' :: name ++ ['!'])
    | _ => some ('!' :: name)
  | _ => none

def isNamed (handle : List Char) : Bool := 1 < handle.length && handle.getLast? == some '!'

def scan? (cs : List Char) : Option (Tag × Nat) :=
  match cs with
  | '!' :: '<' :: rest => do
    let (length, uri) ← uri? true rest
    if length = 0 || (rest.drop length).head? != some '>' then none
    else some (⟨"", uri⟩, length + 3)
  | _ => do
    let handle ← handle? cs
    let (length, uri) ← uri? false (cs.drop handle.length)
    let whole := handle.length + length
    if isNamed handle then
      if length = 0 then none else some (⟨.ofList handle, uri⟩, whole)
    else
      let suffix := (handle.drop 1).map Char.toUInt8 ++ uri
      if suffix.isEmpty then some (⟨"", octets "!"⟩, whole) else some (⟨"!", suffix⟩, whole)

end Tag

inductive Directive where
  | version (major minor : Nat)
  | tag (handle : String) (full : Octets)
  deriving DecidableEq, Repr

namespace Directive

def number? (digits : List Char) : Option Nat :=
  if digits.isEmpty || 9 < digits.length then none
  else some (digits.foldl (fun n c => 10 * n + (c.toNat - 48)) 0)

def version? (cs : List Char) : Option (Directive × List Char) :=
  let major := cs.takeWhile Char.isDigit
  match cs.drop major.length with
  | '.' :: rest => do
    let minor := rest.takeWhile Char.isDigit
    return (.version (← number? major) (← number? minor), rest.drop minor.length)
  | _ => none

def tag? (cs : List Char) : Option (Directive × List Char) := do
  let handle ← Tag.handle? cs
  if !Tag.isNamed handle && handle != ['!'] then none
  else
    let rest := cs.drop handle.length
    let full := rest.dropWhile isGap
    if !(rest.head?.map isGap).getD false then none
    else
      let (length, uri) ← Tag.uri? true full
      let rest := full.drop length
      if length = 0 || !atGap rest then none
      else return (.tag (.ofList handle) uri, rest)

def scan? (cs : List Char) : Option (Directive × List Char) := do
  let name := cs.takeWhile isNameChar
  let rest := cs.drop name.length
  if !atGap rest then none
  else
    let body := rest.dropWhile isGap
    if name = "YAML".toList then version? body
    else if name = "TAG".toList then tag? body
    else none

end Directive

inductive Token where
  | directive (content : Directive)
  | documentStart
  | documentEnd
  | blockList
  | blockMapping
  | blockEnd
  | openList
  | closeList
  | openMapping
  | closeMapping
  | comma
  | hyphen
  | key
  | value
  | alias (name : String)
  | anchor (name : String)
  | tag (tag : Tag)
  | scalar (text : String) (plain : Bool)
  deriving DecidableEq, Repr

end WireSchema.Yaml
