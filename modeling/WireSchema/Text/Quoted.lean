import WireSchema.Text.Combining
import WireSchema.Text
import WireSchema.Text.Unprintable

/-! Texts between double quotes, with escapes for what cannot be seen. -/

namespace WireSchema.Text.Quoted

/-- How NUL is written: always short, or with two digits where a digit follows that would make it
look like an octal number. -/
inductive NulForm where
  | short
  | beforeDigit
  deriving DecidableEq, Repr

def byCodePoint (c : Char) : List Char :=
  "\\u\x7b".toList ++ (hexNumber c.toNat).toList ++ ['\x7d']

def escape (c : Char) : List Char :=
  if c = '\x00' then ['\\', '0']
  else if c = '\t' then ['\\', 't']
  else if c = '\r' then ['\\', 'r']
  else if c = '\n' then ['\\', 'n']
  else if c = '\\' || c = '"' then ['\\', c]
  else if isCombining c || isUnprintable c then byCodePoint c
  else [c]

def isOctalDigit (c : Char) : Bool := '0' ≤ c && c ≤ '7'

def encode (nul : NulForm) : List Char → List Char
  | [] => []
  | c :: rest =>
    (if c = '\x00' && nul = .beforeDigit && (rest.head?.map isOctalDigit).getD false
      then "\\x00".toList else escape c) ++ encode nul rest

def shown (text : String) : String :=
  .ofList (['"'] ++ encode .short text.toList ++ ['"'])

def literal (text : String) : String :=
  .ofList (['"'] ++ encode .beforeDigit text.toList ++ ['"'])

end WireSchema.Text.Quoted
