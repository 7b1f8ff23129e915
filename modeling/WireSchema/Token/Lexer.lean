import WireSchema.Text
import WireSchema.Token.Basic
import WireSchema.Token.Number
import WireSchema.Token.Quote

/-! From a text to its tokens, if it can be read to its end and its brackets match. -/

namespace WireSchema.Token

inductive Lexeme where
  | opening (bracket : Bracket)
  | closing (bracket : Bracket)
  | leaf (token : TokenTree)
  deriving Repr

/-- White space between tokens, with the two marks of writing direction. -/
def isSpace (c : Char) : Bool := Text.isBlank c || c == '\u200e' || c == '\u200f'

def lineRest : List Char → List Char × List Char
  | [] => ([], [])
  | '\n' :: rest => ([], '\n' :: rest)
  | '\r' :: '\n' :: rest => ([], '\n' :: rest)
  | c :: rest => ((c :: (lineRest rest).1), (lineRest rest).2)

def blockRest? (depth : Nat) : List Char → Option (List Char × List Char)
  | [] => none
  | '/' :: '*' :: rest =>
    (blockRest? (depth + 1) rest).map fun (text, rest) => ('/' :: '*' :: text, rest)
  | '*' :: '/' :: rest =>
    match depth with
    | 0 => some ([], rest)
    | depth + 1 => (blockRest? depth rest).map fun (text, rest) => ('*' :: '/' :: text, rest)
  | c :: rest => prepend c (blockRest? depth rest)

def skipTrivia? (cs : List Char) : Option (List Char) :=
  match cs with
  | '/' :: '/' :: '/' :: '/' :: rest => some (lineRest rest).2
  | '/' :: '/' :: '/' :: _ => none
  | '/' :: '/' :: '!' :: _ => none
  | '/' :: '/' :: rest => some (lineRest rest).2
  | '/' :: '*' :: '*' :: '/' :: rest => some rest
  | '/' :: '*' :: '*' :: '*' :: rest => (blockRest? 0 ('*' :: '*' :: rest)).map Prod.snd
  | '/' :: '*' :: '*' :: _ => none
  | '/' :: '*' :: '!' :: _ => none
  | '/' :: '*' :: rest => (blockRest? 0 rest).map Prod.snd
  | c :: rest => if isSpace c then some rest else none
  | [] => none

def returnsPaired : List Char → Bool
  | [] => true
  | '\r' :: '\n' :: rest => returnsPaired rest
  | '\r' :: _ => false
  | _ :: rest => returnsPaired rest

/-- A documentation comment: its text, whether it documents what encloses it, and the rest. -/
def documentation? (cs : List Char) : Option (List Char × Bool × List Char) := do
  let (text, inner, rest) ← match cs with
    | '/' :: '/' :: '!' :: rest => some ((lineRest rest).1, true, (lineRest rest).2)
    | '/' :: '*' :: '!' :: rest => (blockRest? 0 rest).map fun (text, rest) => (text, true, rest)
    | '/' :: '/' :: '/' :: rest =>
      if rest.head? = some '/' then none
      else some ((lineRest rest).1, false, (lineRest rest).2)
    | '/' :: '*' :: '*' :: rest =>
      if rest.head? = some '*' then none
      else (blockRest? 0 rest).map fun (text, rest) => (text, false, rest)
    | _ => none
  if returnsPaired text then some (text, inner, rest) else none

def documentationLexemes (text : List Char) (inner : Bool) : List Lexeme :=
  [.leaf (.mark '#' false)] ++ (if inner then [.leaf (.mark '!' false)] else []) ++
    [.leaf (.group .square [.word "doc", .mark '=' false, .literal (.string (.ofList text))])]

def literal? (cs : List Char) : Option (Literal × List Char) :=
  let other := fun (found : Option (List Char × List Char)) =>
    found.map fun (_, rest) => (Literal.other, dropSuffix rest)
  let text := fun (found : Option (List Char × List Char)) =>
    found.map fun (value, rest) => (Literal.string (.ofList value), dropSuffix rest)
  let single := fun (found : Option (List Char)) =>
    found.map fun rest => (Literal.other, dropSuffix rest)
  match cs with
  | '"' :: rest => text (quoted? .text rest)
  | 'r' :: rest => text (raw? .text rest)
  | 'b' :: '"' :: rest => other (quoted? .bytes rest)
  | 'b' :: 'r' :: rest => other (raw? .bytes rest)
  | 'c' :: '"' :: rest => other (quoted? .cString rest)
  | 'c' :: 'r' :: rest => other (raw? .cString rest)
  | 'b' :: '\'' :: rest => single (singleQuoted? .bytes rest)
  | '\'' :: rest => single (singleQuoted? .text rest)
  | cs => float? cs <|> integer? cs

def isMark (c : Char) : Bool := "~!@#$%^&*-=+|;:,<.>/?'".toList.contains c

def startsMark (cs : List Char) : Bool :=
  match cs with
  | '/' :: '/' :: _ | '/' :: '*' :: _ => false
  | c :: _ => isMark c
  | [] => false

def markedWord? (cs : List Char) : Option (List Char × List Char) :=
  match cs with
  | 'r' :: '#' :: rest =>
    (word? rest).bind fun (name, rest) =>
      if ["_", "super", "self", "Self", "crate"].contains (String.ofList name) then none
      else some ('r' :: '#' :: name, rest)
  | cs => word? cs

/-- Starts of literals, which are no words even where the literal is broken. -/
def literalStarts : List (List Char) :=
  ["r\"", "r#\"", "r##", "b\"", "b'", "br\"", "br#", "c\"", "cr\"", "cr#"].map String.toList

/-- A mark; a single quote is one only in front of a word that no second quote closes. -/
def mark? (cs : List Char) : Option (TokenTree × List Char) :=
  if !startsMark cs then none
  else
    match cs with
    | '\'' :: rest =>
      match markedWord? rest with
      | none => none
      | some (_, after) =>
        if after.head? = some '\'' then none
        else if after.head? = some '#' && (Text.dropFront? ['r', '#'] rest).isNone then none
        else some (.mark '\'' true, rest)
    | c :: rest => some (.mark c (startsMark rest), rest)
    | [] => none

def leaf? (cs : List Char) : Option (TokenTree × List Char) :=
  match literal? cs with
  | some (value, rest) => some (.literal value, rest)
  | none =>
    match mark? cs with
    | some found => some found
    | none =>
      if literalStarts.any fun start => (Text.dropFront? start cs).isSome then none
      else (markedWord? cs).map fun (name, rest) => (.word (.ofList name), rest)

/-- A comment in parentheses that stands for a literal which could not be built. -/
def brokenLiteral : List Char := "(/*ERROR*/)".toList

def next? (cs : List Char) : Option (List Lexeme × List Char) :=
  match skipTrivia? cs with
  | some rest => some ([], rest)
  | none =>
    match documentation? cs with
    | some (text, inner, rest) => some (documentationLexemes text inner, rest)
    | none =>
      match Text.dropFront? brokenLiteral cs with
      | some rest => some ([.leaf (.literal .other)], rest)
      | none =>
        match cs with
        | '(' :: rest => some ([.opening .round], rest)
        | '[' :: rest => some ([.opening .square], rest)
        | '\x7b' :: rest => some ([.opening .curly], rest)
        | ')' :: rest => some ([.closing .round], rest)
        | ']' :: rest => some ([.closing .square], rest)
        | '\x7d' :: rest => some ([.closing .curly], rest)
        | cs => (leaf? cs).map fun (token, rest) => ([.leaf token], rest)

def scan (cs : List Char) : Option (List Lexeme) :=
  if cs.isEmpty then some []
  else
    match next? cs with
    | none => none
    | some (lexemes, rest) =>
      if _shorter : rest.length < cs.length then (scan rest).map (lexemes ++ ·) else none
termination_by cs.length

/-- Groups lexemes by brackets. `outer` holds what stands before each bracket that is still open,
innermost first, and `inner` what has been read since, both backwards. -/
def nest (outer : List (Bracket × List TokenTree)) (inner : List TokenTree) :
    List Lexeme → Option (List TokenTree)
  | [] => if outer.isEmpty then some inner.reverse else none
  | .leaf token :: rest => nest outer (token :: inner) rest
  | .opening bracket :: rest => nest ((bracket, inner) :: outer) [] rest
  | .closing bracket :: rest =>
    match outer with
    | [] => none
    | (opened, before) :: outer =>
      if opened = bracket then nest outer (.group bracket inner.reverse :: before) rest else none

def tokens? (text : String) : Option (List TokenTree) :=
  let cs := (Text.dropFront? ['\ufeff'] text.toList).getD text.toList
  (scan cs).bind (nest [] [])

end WireSchema.Token
