import WireSchema.Schema.Diagnostics
import WireSchema.Table.Attribute
import WireSchema.Text
import WireSchema.Token.Lexer

/-! Reading a table, and where messages about it point. -/

namespace WireSchema.Table

namespace Parse

def length : Parse Nat := do
  match ← peek with
  | .literal (.integer n _) :: rest =>
    if n < wordLimit then advance rest; return n
    else throw .lengthTooLarge
  | .mark '-' _ :: .literal (.integer ..) :: _ => throw .lengthNegative
  | _ => missing [.integerLiteral]

/-- Documentation, each line without one space in front. Any other attribute is refused, but only
after all of them have been read. -/
def docs : Parse (List String) := do
  (← Attribute.texts (← peek).length).mapM fun
    | some text => return .ofList ((Text.dropFront? [' '] text.toList).getD text.toList)
    | none => throw .notDocumentation

def typeRef : Parse TypeRef := do return .ofName (← identifier)

def fieldType : Parse FieldType := do
  match ← peek with
  | .group .square _ :: _ =>
    group .square do
      let element ← typeRef
      mark ";"
      return ⟨element, .array (← length)⟩
  | .word "sequence" :: .mark '<' _ :: rest =>
    advance rest
    let element ← typeRef
    mark ">"
    return ⟨element, .sequence⟩
  | _ =>
    let element ← typeRef
    match ← peek with
    | .group .square body :: _ =>
      group .square do
        if body.isEmpty then return ⟨element, .sequence⟩
        return ⟨element, .array (← length)⟩
    | _ => return ⟨element, .one⟩

def fields : Nat → Parse (List Field)
  | 0 => return []
  | fuel + 1 => do
    if (← peek).isEmpty then return []
    let docs ← docs
    let name ← identifier
    mark ":"
    let type ← fieldType
    if !(← peek).isEmpty then mark ","
    return ⟨name, type, docs⟩ :: (← fields fuel)

def fieldList : Parse (List Field) :=
  group .curly do fields (← peek).length

def identity : Parse TypeIdentity :=
  group .round do
    let name ← stringLiteral
    mark ","
    let hash ← stringLiteral
    if !(← peek).isEmpty then mark ","
    return ⟨name, hash⟩

def head : Parse (String × TypeIdentity) := do
  let name ← identifier
  mark "="
  return (name, ← identity)

def entry : Parse Entry := do
  let docs ← docs
  match ← peek with
  | .word "message" :: rest =>
    advance rest
    let (name, identity) ← head
    return ⟨name, identity, docs, .message (← fieldList)⟩
  | .word "alias" :: rest =>
    advance rest
    let (name, identity) ← head
    let target ← typeRef
    mark ";"
    return ⟨name, identity, docs, .alias target⟩
  | .word "service" :: rest =>
    advance rest
    let (name, identity) ← head
    group .curly do
      keyword "request"
      let request ← fieldList
      keyword "reply"
      let reply ← fieldList
      return ⟨name, identity, docs, .service request reply⟩
  | _ => missing [.keyword "message", .keyword "alias", .keyword "service"]

def entries : Nat → Parse (List Entry)
  | 0 => return []
  | fuel + 1 => do
    if (← peek).isEmpty then return []
    let first ← entry
    return first :: (← entries fuel)

end Parse

/-- The first fault ends the reading. Tokens left over in a group count as a fault only if the rest
of the table has none.

    table    := entry*
    entry    := doc* (message | alias | service)
    message  := "message" name "=" identity "{" fields "}"
    alias    := "alias" name "=" identity type ";"
    service  := "service" name "=" identity
                "{" "request" "{" fields "}" "reply" "{" fields "}" "}"
    identity := "(" string "," string ","? ")"
    fields   := (doc* name ":" field),* ","?
    field    := type | "[" type ";" integer "]" | type "[" integer? "]" | "sequence" "<" type ">"
-/
def ofTokens (tokens : List TokenTree) : Except TableError Schema := do
  let (entries, rest) ← (Parse.entries tokens.length).run ⟨tokens, none⟩
  match rest.leftOver with
  | some bracket => throw (.leftOver bracket)
  | none => return ⟨entries⟩

def parse (text : String) : Except TableError Schema :=
  match Token.tokens? text with
  | some tokens => ofTokens tokens
  | none => throw .unreadable

abbrev Spans := List (String × Nat)

namespace Spans

def ofSchema (schema : Schema) : Spans :=
  schema.entries.zipIdx.flatMap fun (entry, i) => entry.generatedNames.map fun name => (name, i)

/-- The entry for a name; of several recordings the last one counts. -/
def find? (spans : Spans) (name : String) : Option Nat :=
  (spans.reverse.find? (·.1 == name)).map Prod.snd

end Spans

/-- The entry that a message about an error points at. Without one it points at the whole table. -/
def spanOf? (schema : Schema) (error : SchemaError) : Option Nat :=
  error.typeName?.bind (Spans.ofSchema schema).find?

end WireSchema.Table
