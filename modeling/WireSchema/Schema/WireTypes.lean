import WireSchema.Schema.Compiled
import WireSchema.WireType

/-! The wire types that a schema declares. -/

namespace WireSchema

abbrev WireTypeTable := List (String × WireType)

namespace WireTypeTable

def element? (table : WireTypeTable) : TypeRef → Option WireType
  | .base (.scalar kind) => some (.scalar kind)
  | .base .string => some .string
  | .named name => table.lookup name

def field? (table : WireTypeTable) (type : FieldType) : Option WireType :=
  (table.element? type.element).map fun element =>
    match type.cardinality with
    | .one => element
    | .array length => .array element length
    | .sequence => .sequence element

def fields? (table : WireTypeTable) : List Field → Option Fields
  | [] => some .nil
  | field :: rest => do
    let type ← table.field? field.type
    let others ← table.fields? rest
    return .cons field.name type others

def ofEntry (table : WireTypeTable) (entry : Entry) : WireTypeTable :=
  let record (name : String) (role : Role) (fields : List Field) : WireTypeTable :=
    ((table.fields? fields).map fun fields => (name, .record name role fields)).toList
  match entry.body with
  | .message fields => record entry.name .message fields
  | .alias target =>
    ((table.element? target).map fun target => (entry.name, .alias entry.name target)).toList
  | .service request reply =>
    record (requestName entry.name) (.request entry.name) request ++
      record (replyName entry.name) (.reply entry.name) reply

def step (schema : Schema) (table : WireTypeTable) : WireTypeTable :=
  schema.entries.flatMap table.ofEntry

/-- Each round adds the types that need only known ones, so as many rounds as there are entries
reach every type that does not contain itself. -/
def ofSchema (schema : Schema) : WireTypeTable :=
  Nat.repeat (step schema) (schema.entries.length + 1) []

end WireTypeTable

namespace CompiledSchema

def wireType? (compiled : CompiledSchema) (name : String) : Option WireType :=
  (WireTypeTable.ofSchema compiled.schema).lookup name

end CompiledSchema

end WireSchema
