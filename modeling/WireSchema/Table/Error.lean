import WireSchema.Token.Basic

/-! Why a text is no table. -/

namespace WireSchema

inductive Expected where
  | stringLiteral
  | integerLiteral
  | literal
  | integer
  | identifier
  | underscore
  | lifetime
  | delimiter
  | group (bracket : Bracket)
  | keyword (word : String)
  | mark (text : String)
  | pathSegment
  | expression
  | loopOrBlock
  | rangeEnd
  deriving DecidableEq, Repr

inductive AfterCast where
  | await
  | method
  | field
  | question
  | index
  | call
  deriving DecidableEq, Repr

inductive TableError where
  | unreadable
  /-- A missing mark, reported alike at the end of a group. -/
  | missingMark (mark : String)
  | missing (expected : List Expected) (atEnd : Bool)
  | keyword (word : String)
  | lengthTooLarge
  | lengthNegative
  | notDocumentation
  | nestedAttribute
  | leftOver (bracket : Bracket)
  | missingSemicolon
  | chainedComparison
  | afterCast (what : AfterCast)
  | suffixedInteger
  | attributedRange
  | labelledBreak
  | openRangeInSlice
  | noTraitInObject
  | noTraitInBounds
  | captureNotAllowed
  | constNotAllowed (bracketed : Bool)
  | binderWithQuestion
  | genericConditions
  | receiverTwice
  | receiverNotFirst
  | negativeWithoutTrait
  | unreadableNumber
  deriving DecidableEq, Repr

def Bracket.expectedText : Bracket → String
  | .round => "parentheses"
  | .square => "square brackets"
  | .curly => "curly braces"

def Bracket.closingText : Bracket → String
  | .round => ")"
  | .square => "]"
  | .curly => "\x7d"

def Expected.text : Expected → String
  | .stringLiteral => "string literal"
  | .integerLiteral => "integer literal"
  | .literal => "literal"
  | .integer => "integer"
  | .identifier => "identifier"
  | .underscore => "underscore"
  | .lifetime => "lifetime"
  | .delimiter => "delimiter"
  | .group bracket => bracket.expectedText
  | .keyword word => "`" ++ word ++ "`"
  | .mark text => "`" ++ text ++ "`"
  | .pathSegment => "path segment after `::`"
  | .expression => "an expression"
  | .loopOrBlock => "loop or block expression"
  | .rangeEnd => "range upper bound"

def Expected.message (expected : List Expected) : String :=
  match expected.map Expected.text with
  | [one] => "expected " ++ one
  | [one, other] => "expected " ++ one ++ " or " ++ other
  | texts => "expected one of: " ++ ", ".intercalate texts

def AfterCast.text : AfterCast → String
  | .await => "`.await`"
  | .method => "a method call"
  | .field => "a field access"
  | .question => "`?`"
  | .index => "indexing"
  | .call => "a function call"

def TableError.message : TableError → String
  | .unreadable => "no tokens"
  | .missingMark mark => "expected `" ++ mark ++ "`"
  | .missing [] atEnd => if atEnd then "unexpected end of input" else "unexpected token"
  | .missing expected atEnd =>
    (if atEnd then "unexpected end of input, " else "") ++ Expected.message expected
  | .keyword word => "expected identifier, found keyword `" ++ word ++ "`"
  | .lengthTooLarge => "number too large to fit in target type"
  | .lengthNegative => "invalid digit found in string"
  | .notDocumentation => "only doc comments are allowed in a schema table"
  | .nestedAttribute => "unexpected attribute inside of attribute"
  | .leftOver bracket => "unexpected token, expected `" ++ bracket.closingText ++ "`"
  | .missingSemicolon => "unexpected token, expected `;`"
  | .chainedComparison => "comparison operators cannot be chained"
  | .afterCast what => "casts cannot be followed by " ++ what.text
  | .suffixedInteger => "expected unsuffixed integer"
  | .attributedRange => "attributes are not allowed on range expressions starting with `..`"
  | .labelledBreak => "parentheses required"
  | .openRangeInSlice =>
    "range pattern is not allowed unparenthesized inside slice pattern"
  | .noTraitInObject => "at least one trait is required for an object type"
  | .noTraitInBounds => "at least one trait must be specified"
  | .captureNotAllowed => "`use<...>` precise capturing syntax is not allowed here"
  | .constNotAllowed bracketed =>
    if bracketed then "`[const]` is not allowed here" else "`const` is not allowed here"
  | .binderWithQuestion =>
    "`for<...>` binder not allowed with `?` trait polarity modifier"
  | .genericConditions =>
    "generic parameters on `where` clauses are reserved for future use"
  | .receiverTwice => "unexpected second method receiver"
  | .receiverNotFirst => "unexpected method receiver"
  | .negativeWithoutTrait => "inherent impls cannot be negative"
  | .unreadableNumber => "cannot parse string into token stream"

end WireSchema
