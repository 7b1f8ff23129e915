import WireSchema.Table.Expression.Type

/-! Patterns. -/

namespace WireSchema.Table.Expression

open Token Parse

def alternatives (g : Grammar) : Parse PatternShape := do
  let led ← acceptMark "|"
  let first ← g.pattern
  let several tokens := atMark "|" tokens && !atMark "||" tokens && !atMark "|=" tokens
  if !led && !(← sees several) then return first
  repeatWhile do
    if ← sees several then
      mark "|"
      discard g.pattern
      return true
    else return false
  return .other

/-- Two points, three or two with an equals sign behind them; whether they need an upper bound.
Three points are allowed only where they always were. -/
def rangeMark (threePoints : Bool) : Parse Bool := do
  if ← acceptMark "..=" then return true
  else if ← sees (atMark "...") then
    if threePoints then mark "..." else missing [.mark "..="]
    return true
  else
    mark ".."
    return false

def endsPatternRange (tokens : List TokenTree) : Bool :=
  tokens.isEmpty || (atMark ":" tokens && !atMark "::" tokens) || atWord "if" tokens ||
    ["|", "=", ",", ";"].any fun text => atMark text tokens

def rangeBoundStarts : List Expected :=
  [.literal, .identifier, .mark "::", .mark "<", .keyword "self", .keyword "Self",
    .keyword "super", .keyword "crate", .keyword "const"]

def rangeBound (g : Grammar) : Parse Bool := do
  let tokens ← peek
  if endsPatternRange tokens then return false
  if atLiteral tokens then discard literal
  else if startsPath tokens then discard (qualifiedPath g true)
  else if atWord "const" tokens then
    skip 1
    g.block true
  else missing rangeBoundStarts
  return true

def rangeRest (g : Grammar) (threePoints : Bool) : Parse PatternShape := do
  let needed ← rangeMark threePoints
  if ← rangeBound g then return .other
  if needed then missing [.rangeEnd]
  return .openRange

/-- A range without a lower bound, or two points that stand for the rest of a list. -/
def leadingRange (g : Grammar) : Parse PatternShape := do
  let needed ← rangeMark false
  if ← rangeBound g then return .openRange
  if needed then missing [.rangeEnd]
  return .other

def literalPattern (g : Grammar) : Parse PatternShape := do
  discard (rangeBound g)
  if ← sees (atMark "..") then rangeRest g true else return .other

def patternList (g : Grammar) : Parse Unit := commaList (discard (alternatives g))

def sliceContent (g : Grammar) : Parse Unit := commaList do
  if (← alternatives g) = .openRange then throw .openRangeInSlice

def fieldPattern (g : Grammar) : Parse Unit := do
  let boxed ← acceptWord "box"
  let referred ← acceptWord "ref"
  let changes ← acceptWord "mut"
  if boxed || referred || changes then discard identifier
  else
    let named ← member
    if !named || (← sees (atMark ":")) then
      mark ":"
      discard (alternatives g)

def fieldPatterns (g : Grammar) : Parse Unit := repeatWhile do
  if (← peek).isEmpty then return false
  discard g.attributes
  if ← acceptMark ".." then return false
  fieldPattern g
  if (← peek).isEmpty then return false
  mark ","
  return true

def pathPattern (g : Grammar) : Parse PatternShape := do
  let path ← qualifiedPath g true
  let tokens ← peek
  if !path.qualified && path.plain && atMark "!" tokens && !atMark "!=" tokens then
    skip 1
    discard delimited
    return .other
  if atGroup .curly tokens then
    group .curly (fieldPatterns g)
    return .other
  if atGroup .round tokens then
    group .round (patternList g)
    return .other
  if atMark ".." tokens then rangeRest g true else return .other

def namePattern (g : Grammar) : Parse PatternShape := do
  discard (acceptWord "ref")
  discard (acceptWord "mut")
  if !(← acceptWord "self") then discard identifier
  if ← acceptMark "@" then discard g.pattern
  return .other

def patternStarts (atPoints : Bool) : List Expected :=
  [.identifier, .mark "::", .mark "<", .keyword "_", .literal, .keyword "const", .keyword "ref",
    .keyword "mut", .mark "&", .group .round, .group .square] ++
    (if atPoints then [] else [.mark ".."]) ++ [.keyword "const"]

def startsPathPattern (tokens : List TokenTree) : Bool :=
  let rest := behind tokens
  (atName tokens && (["::", "!", ".."].any (atMark · rest) || atGroup .curly rest ||
    atGroup .round rest)) ||
    (atWord "self" tokens && atMark "::" rest) || atMark "::" tokens || atMark "<" tokens ||
    ["Self", "super", "crate"].any (atWord · tokens)

def pattern (g : Grammar) : Parse PatternShape := do
  let tokens ← peek
  if startsPathPattern tokens then pathPattern g
  else if ← acceptWord "_" then return .other
  else if ← acceptWord "box" then
    discard g.pattern
    return .other
  else if atMark "-" tokens || atLiteral tokens || atWord "const" tokens then literalPattern g
  else if ["ref", "mut", "self"].any (atWord · tokens) || atName tokens then namePattern g
  else if ← acceptMark "&" then
    discard (acceptWord "mut")
    discard g.pattern
    return .other
  else if atGroup .round tokens then
    group .round (patternList g)
    return .other
  else if atGroup .square tokens then
    group .square (sliceContent g)
    return .other
  else if atMark ".." tokens && !atMark "..." tokens then leadingRange g
  else missing (patternStarts (atMark ".." tokens))

end WireSchema.Table.Expression
