import WireSchema.Scalar

/-! The types that a schema knows without declaring them. -/

namespace WireSchema

inductive BaseType where
  | scalar (kind : Scalar)
  | string
  deriving DecidableEq, Repr

namespace BaseType

def spellings : BaseType → List String
  | .scalar .bool => ["bool", "boolean"]
  | .scalar .char => ["char"]
  | .scalar .int8 => ["int8", "i8", "int8_t"]
  | .scalar .uint8 => ["uint8", "u8", "uint8_t", "byte", "octet"]
  | .scalar .int16 => ["int16", "i16", "int16_t"]
  | .scalar .uint16 => ["uint16", "u16", "uint16_t"]
  | .scalar .int32 => ["int32", "i32", "int32_t"]
  | .scalar .uint32 => ["uint32", "u32", "uint32_t"]
  | .scalar .int64 => ["int64", "i64", "int64_t"]
  | .scalar .uint64 => ["uint64", "u64", "uint64_t"]
  | .scalar .float32 => ["float32", "f32", "float"]
  | .scalar .float64 => ["float64", "f64", "double"]
  | .string => ["string", "str", "rstring"]

def all : List BaseType :=
  [.scalar .bool, .scalar .char, .scalar .int8, .scalar .uint8, .scalar .int16, .scalar .uint16,
    .scalar .int32, .scalar .uint32, .scalar .int64, .scalar .uint64, .scalar .float32,
    .scalar .float64, .string]

theorem mem_all (base : BaseType) : base ∈ all := by
  cases base with
  | scalar kind => cases kind <;> decide
  | string => decide

def ofSpelling? (name : String) : Option BaseType :=
  all.find? (·.spellings.contains name)

def name : BaseType → String
  | .scalar kind => kind.name
  | .string => "string"

def width? : BaseType → Option Nat
  | .scalar kind => some kind.width
  | .string => none

end BaseType

end WireSchema
