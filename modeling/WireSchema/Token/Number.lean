import WireSchema.Text
import WireSchema.Text.WordCharacter
import WireSchema.Token.Basic

/-! Numeric literals. -/

namespace WireSchema.Token

def startsWord (c : Char) : Bool := c == '_' || Text.isWordStart c

def word? : List Char → Option (List Char × List Char)
  | [] => none
  | c :: rest =>
    if startsWord c then
      some (c :: rest.takeWhile Text.isWordRest, rest.dropWhile Text.isWordRest)
    else none

def suffix (cs : List Char) : List Char × List Char := (word? cs).getD ([], cs)

def dropSuffix (cs : List Char) : List Char := (suffix cs).2

/-- Digits of a base: underscores are skipped, the first character that is no digit ends them, and
a decimal digit that the base does not have is an error. Answers the value, whether there was a
digit, and the rest. -/
def digits? (base value : Nat) (found : Bool) : List Char → Option (Nat × Bool × List Char)
  | [] => some (value, found, [])
  | c :: rest =>
    if c = '_' then
      if !found && base = 10 then none else digits? base value found rest
    else
      match Text.hexValue? c with
      | none => some (value, found, c :: rest)
      | some d =>
        if d < base then digits? base (base * value + d) true rest
        else if d < 10 then none
        else some (value, found, c :: rest)

def basePart (cs : List Char) : Nat × List Char :=
  match cs with
  | '0' :: 'x' :: rest => (16, rest)
  | '0' :: 'o' :: rest => (8, rest)
  | '0' :: 'b' :: rest => (2, rest)
  | cs => (10, cs)

def endOfNumber? (cs : List Char) : Option (List Char) :=
  match cs with
  | c :: _ => if Text.isWordRest c then none else some cs
  | [] => some []

def integer? (cs : List Char) : Option (Literal × List Char) := do
  let (base, body) := basePart cs
  let (value, found, rest) ← digits? base 0 false body
  if !found then none
  else return (.integer value (.ofList (suffix rest).1), ← endOfNumber? (suffix rest).2)

def exponent? (signed found : Bool) : List Char → Option (List Char)
  | [] => if found then some [] else none
  | c :: rest =>
    if c = '+' || c = '-' then
      if found then some (c :: rest) else if signed then none else exponent? true found rest
    else if c.isDigit then exponent? signed true rest
    else if c = '_' then exponent? signed found rest
    else if found then some (c :: rest) else none

/-- What follows a number with a point or an exponent. After a point there must be neither a
second one nor a word; an exponent without digits is left for the suffix if a point came before. -/
def floatRest? (dot : Bool) : List Char → Option (List Char)
  | [] => if dot then some [] else none
  | c :: rest =>
    if c.isDigit || c = '_' then floatRest? dot rest
    else if c = '.' then
      if dot then some (c :: rest)
      else if (rest.head?.map fun d => d == '.' || startsWord d).getD false then none
      else floatRest? true rest
    else if c = 'e' || c = 'E' then
      match exponent? false false rest with
      | some rest => some rest
      | none => if dot then some (c :: rest) else none
    else if dot then some (c :: rest)
    else none

def float? (cs : List Char) : Option (Literal × List Char) := do
  if !(cs.head?.map Char.isDigit).getD false then none
  else
    let rest ← endOfNumber? (dropSuffix (← floatRest? false (cs.drop 1)))
    return (.float (.ofList (cs.take (cs.length - rest.length))), rest)

end WireSchema.Token
