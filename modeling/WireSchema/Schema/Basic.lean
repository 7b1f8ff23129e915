import WireSchema.Error
import WireSchema.Schema.FieldType

/-! A schema: messages, aliases and services in the order of their declaration. -/

namespace WireSchema

structure TypeIdentity where
  name : String
  hash : String
  deriving DecidableEq, Repr

namespace TypeIdentity

def isOf (identity : TypeIdentity) (name hash : String) : Bool :=
  identity.name == name && identity.hash == hash

def verify (identity : TypeIdentity) (name hash : String) : Except CodecError Unit :=
  if identity.isOf name hash then .ok () else .error .identityMismatch

def text (identity : TypeIdentity) : String :=
  identity.name ++ " (" ++ identity.hash ++ ")"

end TypeIdentity

structure Field where
  name : String
  type : FieldType
  docs : List String
  deriving DecidableEq, Repr

inductive Body where
  | message (fields : List Field)
  | alias (target : TypeRef)
  | service (request reply : List Field)
  deriving DecidableEq, Repr

structure Entry where
  name : String
  identity : TypeIdentity
  docs : List String
  body : Body
  deriving DecidableEq, Repr

structure Schema where
  entries : List Entry
  deriving DecidableEq, Repr

def requestName (service : String) : String := service ++ "Request"

def replyName (service : String) : String := service ++ "Reply"

namespace Body

def isMessage : Body → Bool
  | .message _ => true
  | _ => false

def isAlias : Body → Bool
  | .alias _ => true
  | _ => false

def isService : Body → Bool
  | .service .. => true
  | _ => false

def keyword : Body → String
  | .message _ => "message"
  | .alias _ => "alias"
  | .service .. => "service"

/-- The declared names that a message or an alias refers to, in order. A service is no value and
is part of no other type. -/
def references : Body → List String
  | .message fields => fields.filterMap (·.type.element.name?)
  | .alias target => target.name?.toList
  | .service .. => []

end Body

namespace Schema

def isEmpty (schema : Schema) : Bool := schema.entries.isEmpty

def find? (schema : Schema) (name : String) : Option Entry :=
  schema.entries.find? (·.name == name)

end Schema

end WireSchema
