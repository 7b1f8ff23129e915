import WireSchema.Schema.Basic

/-! The content of a schema file, with types and documentation as texts. -/

namespace WireSchema

structure FieldRecord where
  name : String
  type : String
  doc? : Option String
  deriving DecidableEq, Repr

structure MessageRecord where
  name : String
  identity : TypeIdentity
  doc? : Option String
  fields : List FieldRecord
  deriving DecidableEq, Repr

structure AliasRecord where
  name : String
  identity : TypeIdentity
  doc? : Option String
  type : String
  deriving DecidableEq, Repr

structure ServiceRecord where
  name : String
  identity : TypeIdentity
  doc? : Option String
  request : List FieldRecord
  reply : List FieldRecord
  deriving DecidableEq, Repr

structure Document where
  messages : List MessageRecord
  aliases : List AliasRecord
  services : List ServiceRecord
  deriving DecidableEq, Repr

namespace Document

def joinDocs (docs : List String) : Option String :=
  if docs.isEmpty then none else some ("\n".intercalate docs)

def docLines (doc? : Option String) : List String :=
  match doc? with
  | none => []
  | some text => (Text.lines (Text.trimEnd text.toList)).map String.ofList

def ofField (field : Field) : FieldRecord :=
  ⟨field.name, field.type.text, joinDocs field.docs⟩

def toField (record : FieldRecord) : Except SchemaError Field := do
  return ⟨record.name, ← FieldType.parse record.type, docLines record.doc?⟩

def message? (entry : Entry) : Option MessageRecord :=
  match entry.body with
  | .message fields =>
    some ⟨entry.name, entry.identity, joinDocs entry.docs, fields.map ofField⟩
  | _ => none

def alias? (entry : Entry) : Option AliasRecord :=
  match entry.body with
  | .alias target => some ⟨entry.name, entry.identity, joinDocs entry.docs, target.text⟩
  | _ => none

def service? (entry : Entry) : Option ServiceRecord :=
  match entry.body with
  | .service request reply =>
    some ⟨entry.name, entry.identity, joinDocs entry.docs, request.map ofField,
      reply.map ofField⟩
  | _ => none

def ofSchema (schema : Schema) : Document :=
  ⟨schema.entries.filterMap message?, schema.entries.filterMap alias?,
    schema.entries.filterMap service?⟩

def messageEntry (record : MessageRecord) : Except SchemaError Entry := do
  return ⟨record.name, record.identity, docLines record.doc?,
    .message (← record.fields.mapM toField)⟩

def aliasEntry (record : AliasRecord) : Except SchemaError Entry := do
  let type ← FieldType.parse record.type
  if type.cardinality = .one then
    return ⟨record.name, record.identity, docLines record.doc?, .alias type.element⟩
  else throw (.invalidTypeSyntax record.type .aliasTarget)

def serviceEntry (record : ServiceRecord) : Except SchemaError Entry := do
  return ⟨record.name, record.identity, docLines record.doc?,
    .service (← record.request.mapM toField) (← record.reply.mapM toField)⟩

/-- All messages, then all aliases, then all services. The first text that is no type fails. -/
def toSchema (document : Document) : Except SchemaError Schema := do
  let messages ← document.messages.mapM messageEntry
  let aliases ← document.aliases.mapM aliasEntry
  let services ← document.services.mapM serviceEntry
  return ⟨messages ++ aliases ++ services⟩

end Document

end WireSchema
