import WireSchema.Schema.Diagnostics

/-! Schemas without faults, and which of their types borrow. -/

namespace WireSchema

structure Contents where
  borrowed : Bool
  sequence : Bool
  deriving DecidableEq, Repr

namespace Contents

def empty : Contents := ⟨false, false⟩

def union (a b : Contents) : Contents :=
  ⟨a.borrowed || b.borrowed, a.sequence || b.sequence⟩

end Contents

abbrev ContentsTable := List (String × Contents)

namespace ContentsTable

def get (table : ContentsTable) (name : String) : Contents :=
  (table.lookup name).getD .empty

def ofElement (table : ContentsTable) : TypeRef → Contents
  | .base (.scalar _) => .empty
  | .base .string => ⟨true, false⟩
  | .named name => table.get name

def ofField (table : ContentsTable) (field : Field) : Contents :=
  match field.type.cardinality with
  | .sequence => ⟨true, true⟩
  | .one | .array _ => table.ofElement field.type.element

def ofFields (table : ContentsTable) (fields : List Field) : Contents :=
  fields.foldl (fun found field => found.union (table.ofField field)) .empty

/-- The types that an entry generates, with what occurs in each as far as `table` knows. A service
itself holds nothing. -/
def ofEntry (table : ContentsTable) (entry : Entry) : ContentsTable :=
  match entry.body with
  | .message fields => [(entry.name, table.ofFields fields)]
  | .alias target => [(entry.name, table.ofElement target)]
  | .service .. => entry.fieldLists.map fun (owner, fields) => (owner, table.ofFields fields)

def step (schema : Schema) (table : ContentsTable) : ContentsTable :=
  schema.entries.flatMap table.ofEntry

/-- A chain of references without repetition has at most as many members as there are entries, so
as many rounds find everything. -/
def ofSchema (schema : Schema) : ContentsTable :=
  Nat.repeat (step schema) (schema.entries.length + 1) []

end ContentsTable

structure CompiledSchema where
  schema : Schema
  contents : ContentsTable

namespace Schema

def compile (schema : Schema) : Except SchemaError CompiledSchema :=
  match schema.diagnostics with
  | error :: _ => .error error
  | [] => .ok ⟨schema, .ofSchema schema⟩

end Schema

namespace CompiledSchema

def borrows (compiled : CompiledSchema) (name : String) : Bool :=
  (compiled.contents.get name).borrowed

def isCopy (compiled : CompiledSchema) (name : String) : Bool :=
  !(compiled.contents.get name).sequence

def fieldBorrows (compiled : CompiledSchema) (field : Field) : Bool :=
  (compiled.contents.ofField field).borrowed

end CompiledSchema

end WireSchema
