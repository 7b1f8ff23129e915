import WireSchema.Scalar
import WireSchema.Sequence

/-! The types of the wire and their values. -/

namespace WireSchema

inductive Role where
  | message
  | request (service : String)
  | reply (service : String)
  deriving DecidableEq, Repr

mutual

inductive WireType where
  | scalar (kind : Scalar)
  | string
  | array (element : WireType) (length : Nat)
  | sequence (element : WireType)
  | record (name : String) (role : Role) (fields : Fields)
  | alias (name : String) (target : WireType)

inductive Fields where
  | nil
  | cons (name : String) (type : WireType) (rest : Fields)

end

mutual

def WireType.Value : WireType → Type
  | .scalar kind => kind.Carrier
  | .string => String
  | .array element length => Vector element.Value length
  | .sequence element => Sequence element.Value
  | .record _ _ fields => fields.Value
  | .alias _ target => target.Value

def Fields.Value : Fields → Type
  | .nil => Unit
  | .cons _ type rest => type.Value × rest.Value

end

mutual

def WireType.default : (type : WireType) → type.Value
  | .scalar kind => kind.default
  | .string => ""
  | .array element length => Vector.replicate length element.default
  | .sequence _ => Sequence.empty
  | .record _ _ fields => fields.default
  | .alias _ target => target.default

def Fields.default : (fields : Fields) → fields.Value
  | .nil => ()
  | .cons _ type rest => (type.default, rest.default)

end

mutual

/-- Equality of what a reader sees: numbers as numbers, sequences by their current elements. -/
def WireType.same : (type : WireType) → type.Value → type.Value → Bool
  | .scalar kind, a, b => kind.same a b
  | .string, a, b => String.decEq a b |>.decide
  | .array element _, a, b => (Vector.toList a).isEqv (Vector.toList b) element.same
  | .sequence element, a, b => Sequence.same element.same a b
  | .record _ _ fields, a, b => fields.same a b
  | .alias _ target, a, b => target.same a b

def Fields.same : (fields : Fields) → fields.Value → fields.Value → Bool
  | .nil, (), () => true
  | .cons _ type rest, (a, as), (b, bs) => type.same a b && rest.same as bs

end

mutual

/-- The fewest bytes that a value can take, padding left out: a string or a sequence takes at
least its count. -/
def WireType.minimumSize : WireType → Nat
  | .scalar kind => kind.width
  | .string => 4
  | .array element length => length * element.minimumSize
  | .sequence _ => 4
  | .record _ _ fields => fields.minimumSize
  | .alias _ target => target.minimumSize

def Fields.minimumSize : Fields → Nat
  | .nil => 0
  | .cons _ type rest => type.minimumSize + rest.minimumSize

end

end WireSchema
