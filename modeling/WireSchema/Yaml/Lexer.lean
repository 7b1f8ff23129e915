import WireSchema.Yaml.BlockScalar
import WireSchema.Yaml.FlowScalar
import WireSchema.Yaml.Tag

/-! The tokens of a text. A key shows as such only at the colon behind it. -/

namespace WireSchema.Yaml

/-- A place where a key may have begun, behind `index` tokens. A required one has to turn out to be
a key, as nothing else can stand at its column. -/
structure Candidate where
  required : Bool
  index : Nat
  start : Position
  deriving DecidableEq, Repr

/-- How far the tokens of a text have been found. The tokens are held last first, the columns of
open block collections and the candidates innermost first; of candidates there is one for the block
context and one for each open flow collection. -/
structure Lexer where
  cursor : Cursor
  tokens : List Token
  count : Nat
  indents : List Nat
  candidates : List (Option Candidate)
  keyAllowed : Bool

namespace Lexer

def start (text : List Char) : Lexer := ⟨⟨text, .start⟩, [], 0, [], [none], true⟩

def here (lexer : Lexer) : Position := lexer.cursor.here

def inFlow (lexer : Lexer) : Bool := 1 < lexer.candidates.length

def push (lexer : Lexer) (token : Token) : Lexer :=
  { lexer with tokens := token :: lexer.tokens, count := lexer.count + 1 }

def moveTo (lexer : Lexer) (cursor : Cursor) : Lexer := { lexer with cursor := cursor }

def skip (lexer : Lexer) (n : Nat) : Lexer := lexer.moveTo (lexer.cursor.skip n)

def allowKey (lexer : Lexer) (allowed : Bool) : Lexer := { lexer with keyAllowed := allowed }

/-- Passes over white space, comments and line ends. After a line end a key may follow, and then
tabs are no white space. A byte order mark at the start of a line is passed over too. -/
def skipBlank (flow keyAllowed comment : Bool) (here : Position) : List Char → Cursor × Bool
  | [] => (⟨[], here⟩, keyAllowed)
  | c :: rest =>
    if isBreak c then skipBlank flow (keyAllowed || !flow) false (here.next c) rest
    else if comment || c == ' ' || (c == '\t' && (flow || !keyAllowed)) ||
        (c == '\ufeff' && here.column == 0) then
      skipBlank flow keyAllowed comment (here.next c) rest
    else if c == '#' then skipBlank flow keyAllowed true (here.next c) rest
    else (⟨c :: rest, here⟩, keyAllowed)

def toNextToken (lexer : Lexer) : Lexer :=
  let (cursor, keyAllowed) :=
    skipBlank lexer.inFlow lexer.keyAllowed false lexer.here lexer.cursor.rest
  { lexer with cursor := cursor, keyAllowed := keyAllowed }

/-- A key stays on one line and has at most 1024 characters. -/
def isStale (here : Position) (candidate : Candidate) : Bool :=
  candidate.start.line < here.line || candidate.start.offset + 1024 < here.offset

def dropStale? (lexer : Lexer) : Option Lexer := do
  let candidates ← lexer.candidates.mapM fun
    | none => some none
    | some candidate =>
      if !isStale lexer.here candidate then some (some candidate)
      else if candidate.required then none
      else some none
  return { lexer with candidates := candidates }

def dropCandidate? (lexer : Lexer) : Option Lexer :=
  match lexer.candidates with
  | some candidate :: rest =>
    if candidate.required then none else some { lexer with candidates := none :: rest }
  | _ => some lexer

def saveCandidate? (lexer : Lexer) : Option Lexer := do
  if !lexer.keyAllowed then return lexer
  let lexer ← lexer.dropCandidate?
  let required := !lexer.inFlow && lexer.indents.head? == some lexer.here.column
  return { lexer with
    candidates := some ⟨required, lexer.count, lexer.here⟩ :: lexer.candidates.drop 1 }

def closeDeeper (limit? : Option Nat) : List Nat → List Token → Nat → List Nat × List Token × Nat
  | [], tokens, count => ([], tokens, count)
  | indent :: outer, tokens, count =>
    if (limit?.map fun limit => decide (limit < indent)).getD true then
      closeDeeper limit? outer (.blockEnd :: tokens) (count + 1)
    else (indent :: outer, tokens, count)

def closeBlocks (lexer : Lexer) (limit? : Option Nat) : Lexer :=
  if lexer.inFlow then lexer
  else
    let (indents, tokens, count) := closeDeeper limit? lexer.indents lexer.tokens lexer.count
    { lexer with indents := indents, tokens := tokens, count := count }

def opensBlock (lexer : Lexer) (column : Nat) : Bool :=
  !lexer.inFlow && (lexer.indents.head?.map fun indent => decide (indent < column)).getD true

def openBlock (lexer : Lexer) (column : Nat) (token : Token) : Lexer :=
  if lexer.opensBlock column then
    { lexer.push token with indents := column :: lexer.indents }
  else lexer

def insert (lexer : Lexer) (index : Nat) (tokens : List Token) : Lexer :=
  let later := lexer.count - index
  { lexer with
    tokens := lexer.tokens.take later ++ tokens ++ lexer.tokens.drop later
    count := lexer.count + tokens.length }

def fetchDirective? (lexer : Lexer) : Option Lexer := do
  let lexer ← (lexer.closeBlocks none).dropCandidate?
  let body := lexer.cursor.rest.drop 1
  let (directive, rest) ← Directive.scan? body
  let cursor ← BlockScalar.endLine? (lexer.cursor.skip (1 + (body.length - rest.length)))
  return ((lexer.allowKey false).moveTo cursor).push (.directive directive)

def fetchBoundary? (lexer : Lexer) (token : Token) : Option Lexer := do
  let lexer ← (lexer.closeBlocks none).dropCandidate?
  return ((lexer.allowKey false).skip 3).push token

def fetchOpen? (lexer : Lexer) (token : Token) : Option Lexer := do
  let lexer ← lexer.saveCandidate?
  let lexer := { lexer with candidates := none :: lexer.candidates }
  return ((lexer.allowKey true).skip 1).push token

def fetchClose? (lexer : Lexer) (token : Token) : Option Lexer := do
  let lexer ← lexer.dropCandidate?
  let lexer := if lexer.inFlow then { lexer with candidates := lexer.candidates.drop 1 } else lexer
  return ((lexer.allowKey false).skip 1).push token

def fetchComma? (lexer : Lexer) : Option Lexer := do
  let lexer ← lexer.dropCandidate?
  return ((lexer.allowKey true).skip 1).push .comma

def fetchHyphen? (lexer : Lexer) : Option Lexer := do
  if !lexer.inFlow && !lexer.keyAllowed then none
  let lexer ← (lexer.openBlock lexer.here.column .blockList).dropCandidate?
  return ((lexer.allowKey true).skip 1).push .hyphen

def fetchKey? (lexer : Lexer) : Option Lexer := do
  if !lexer.inFlow && !lexer.keyAllowed then none
  let lexer ← (lexer.openBlock lexer.here.column .blockMapping).dropCandidate?
  return ((lexer.allowKey (!lexer.inFlow)).skip 1).push .key

def fetchValue? (lexer : Lexer) : Option Lexer :=
  match lexer.candidates with
  | some candidate :: outer =>
    let column := candidate.start.column
    let opens := lexer.opensBlock column
    let lexer := lexer.insert candidate.index (if opens then [.key, .blockMapping] else [.key])
    let lexer := { lexer with
      candidates := none :: outer
      indents := if opens then column :: lexer.indents else lexer.indents }
    some (((lexer.allowKey false).skip 1).push .value)
  | _ =>
    if !lexer.inFlow && !lexer.keyAllowed then none
    else
      let lexer := lexer.openBlock lexer.here.column .blockMapping
      some (((lexer.allowKey (!lexer.inFlow)).skip 1).push .value)

def fetchName? (lexer : Lexer) (token : String → Token) : Option Lexer := do
  let lexer := (← lexer.saveCandidate?).allowKey false
  let name := (lexer.cursor.rest.drop 1).takeWhile isNameChar
  let lexer := lexer.skip (name.length + 1)
  let rest := lexer.cursor.rest
  if name.isEmpty || !(atGap rest || (rest.head?.map fun c => isAnyOf "?:,]\x7d%@`" c).getD false)
  then none
  else return lexer.push (token (.ofList name))

def fetchTag? (lexer : Lexer) : Option Lexer := do
  let lexer := (← lexer.saveCandidate?).allowKey false
  let (tag, length) ← Tag.scan? lexer.cursor.rest
  let lexer := lexer.skip length
  if atGap lexer.cursor.rest || (lexer.inFlow && lexer.cursor.rest.head? = some ',') then
    return lexer.push (.tag tag)
  else none

def fetchBlockScalar? (lexer : Lexer) (folded : Bool) : Option Lexer := do
  let lexer := (← lexer.dropCandidate?).allowKey true
  let (text, cursor) ← BlockScalar.scan? folded lexer.indents.head? (lexer.cursor.skip 1)
  return (lexer.moveTo cursor).push (.scalar text false)

def fetchSingleQuoted? (lexer : Lexer) : Option Lexer := do
  let lexer := ((← lexer.saveCandidate?).allowKey false).skip 1
  let (text, cursor) ← FlowScalar.singleQuoted? .empty lexer.here lexer.cursor.rest
  return (lexer.moveTo cursor).push (.scalar text false)

def fetchDoubleQuoted? (lexer : Lexer) : Option Lexer := do
  let lexer := ((← lexer.saveCandidate?).allowKey false).skip 1
  let (text, cursor) ← FlowScalar.doubleQuoted? .empty lexer.here lexer.cursor.rest
  return (lexer.moveTo cursor).push (.scalar text false)

def fetchPlain? (lexer : Lexer) : Option Lexer := do
  let lexer := (← lexer.saveCandidate?).allowKey false
  let indent := ((lexer.indents.head?).map (· + 1)).getD 0
  let (part, cursor) ←
    FlowScalar.plain? lexer.inFlow indent .empty lexer.here lexer.cursor.rest
  let text := String.ofList part.value.reverse
  return ((lexer.moveTo cursor).allowKey part.gap.leavesLine).push (.scalar text true)

def startsPlain (flow : Bool) (c : Char) (rest : List Char) : Bool :=
  if c == '-' then !(rest.head?.map isGap).getD false
  else if c == '?' || c == ':' then !flow && !atGap rest
  else !isGapOrBreak c && !isAnyOf ",[]\x7b\x7d#&*!|>'\"%@`" c

def fetch? (lexer : Lexer) (c : Char) (rest : List Char) : Option Lexer :=
  let lineStart := lexer.here.column == 0
  if lineStart && c == '%' then lexer.fetchDirective?
  else if lineStart && isBoundary (c :: rest) then
    lexer.fetchBoundary? (if c == '-' then .documentStart else .documentEnd)
  else if c == '[' then lexer.fetchOpen? .openList
  else if c == '\x7b' then lexer.fetchOpen? .openMapping
  else if c == ']' then lexer.fetchClose? .closeList
  else if c == '\x7d' then lexer.fetchClose? .closeMapping
  else if c == ',' then lexer.fetchComma?
  else if c == '-' && atGap rest then lexer.fetchHyphen?
  else if c == '?' && (lexer.inFlow || atGap rest) then lexer.fetchKey?
  else if c == ':' && (lexer.inFlow || atGap rest) then lexer.fetchValue?
  else if c == '*' then lexer.fetchName? .alias
  else if c == '&' then lexer.fetchName? .anchor
  else if c == '!' then lexer.fetchTag?
  else if c == '|' && !lexer.inFlow then lexer.fetchBlockScalar? false
  else if c == '>' && !lexer.inFlow then lexer.fetchBlockScalar? true
  else if c == '\'' then lexer.fetchSingleQuoted?
  else if c == '"' then lexer.fetchDoubleQuoted?
  else if startsPlain lexer.inFlow c rest then lexer.fetchPlain?
  else none

def run : Nat → Lexer → Option (List Token)
  | 0, _ => none
  | fuel + 1, lexer => do
    let lexer ← lexer.toNextToken.dropStale?
    let lexer := lexer.closeBlocks (some lexer.here.column)
    match lexer.cursor.rest with
    | [] => return (← (lexer.closeBlocks none).dropCandidate?).tokens.reverse
    | c :: rest => run fuel (← lexer.fetch? c rest)

end Lexer

/-- The tokens of a text in which line feeds, line separators and paragraph separators are the only
line breaks. -/
def tokens? (text : List Char) : Option (List Token) :=
  (Lexer.start text).run (text.length + 1)

end WireSchema.Yaml
