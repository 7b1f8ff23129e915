import WireSchema.Schema.Compiled
import WireSchema.WireType

/-! What code is generated for a schema. -/

namespace WireSchema

inductive ElementItem where
  | base (type : BaseType)
  | named (name : String) (lifetime : Bool)
  deriving DecidableEq, Repr

structure FieldItem where
  name : String
  docs : List String
  element : ElementItem
  cardinality : Cardinality
  deriving DecidableEq, Repr

inductive Item where
  | record (name : String) (role : Role) (docs : List String) (lifetime copied : Bool)
      (fields : List FieldItem)
  | alias (name : String) (docs : List String) (lifetime copied : Bool) (target : ElementItem)
  | service (name : String) (docs : List String) (request reply : ElementItem)
  | identity (name : String) (lifetime : Bool) (identity : TypeIdentity)
  deriving DecidableEq, Repr

namespace ElementItem

def mentionsLifetime : ElementItem → Bool
  | .base (.scalar _) => false
  | .base .string => true
  | .named _ lifetime => lifetime

end ElementItem

namespace FieldItem

def mentionsLifetime (field : FieldItem) : Bool :=
  field.cardinality = .sequence || field.element.mentionsLifetime

end FieldItem

namespace CompiledSchema

variable (compiled : CompiledSchema)

def namedItem (name : String) : ElementItem := .named name (compiled.borrows name)

def elementItem : TypeRef → ElementItem
  | .base type => .base type
  | .named name => compiled.namedItem name

def fieldItem (field : Field) : FieldItem :=
  ⟨field.name, field.docs, compiled.elementItem field.type.element, field.type.cardinality⟩

def recordItem (name : String) (role : Role) (docs : List String) (fields : List Field) : Item :=
  .record name role docs (compiled.borrows name) (compiled.isCopy name)
    (fields.map compiled.fieldItem)

def entryItems (entry : Entry) : List Item :=
  let name := entry.name
  let identity := Item.identity name (compiled.borrows name) entry.identity
  match entry.body with
  | .message fields => [compiled.recordItem name .message entry.docs fields, identity]
  | .alias target =>
    [.alias name entry.docs (compiled.borrows name) (compiled.isCopy name)
      (compiled.elementItem target), identity]
  | .service request reply =>
    [compiled.recordItem (requestName name) (.request name) ["Request of [`" ++ name ++ "`]"]
        request,
      compiled.recordItem (replyName name) (.reply name) ["Reply of [`" ++ name ++ "`]"] reply,
      .service name entry.docs (compiled.namedItem (requestName name))
        (compiled.namedItem (replyName name)),
      identity]

def items : List Item := compiled.schema.entries.flatMap compiled.entryItems

end CompiledSchema

end WireSchema
