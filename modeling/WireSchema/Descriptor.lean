import WireSchema.WireType

/-! Descriptions of types: names, fields and sizes, without values. -/

namespace WireSchema

inductive Cardinality where
  | one
  | array (length : Nat)
  | sequence
  deriving DecidableEq, Repr

def Cardinality.text (cardinality : Cardinality) (element : String) : String :=
  match cardinality with
  | .one => element
  | .array length => element ++ "[" ++ toString length ++ "]"
  | .sequence => "sequence<" ++ element ++ ">"

mutual

inductive Descriptor where
  | scalar (name : String) (kind : Scalar)
  | string (name : String)
  | array (name : String) (element : Descriptor) (length : Nat)
  | sequence (name : String) (element : Descriptor)
  | record (name : String) (role : Role) (fields : FieldDescriptors)

inductive FieldDescriptors where
  | nil
  | cons (name : String) (element : Descriptor) (cardinality : Cardinality)
      (rest : FieldDescriptors)

end

structure FieldDescriptor where
  name : String
  element : Descriptor
  cardinality : Cardinality

def FieldDescriptors.toList : FieldDescriptors → List FieldDescriptor
  | .nil => []
  | .cons name element cardinality rest => ⟨name, element, cardinality⟩ :: rest.toList

def FieldDescriptors.ofList : List FieldDescriptor → FieldDescriptors
  | [] => .nil
  | field :: rest => .cons field.name field.element field.cardinality (ofList rest)

def FieldDescriptor.typeText (field : FieldDescriptor) : String → String :=
  field.cardinality.text

namespace Descriptor

def ofScalar (kind : Scalar) : Descriptor := .scalar kind.name kind

def ofString : Descriptor := .string "string"

def name : Descriptor → String
  | .scalar name _ | .string name | .array name _ _ | .sequence name _ | .record name _ _ => name

def rename (name : String) : Descriptor → Descriptor
  | .scalar _ kind => .scalar name kind
  | .string _ => .string name
  | .array _ element length => .array name element length
  | .sequence _ element => .sequence name element
  | .record _ role fields => .record name role fields

def fields : Descriptor → List FieldDescriptor
  | .record _ _ fields => fields.toList
  | _ => []

def field? (descriptor : Descriptor) (name : String) : Option FieldDescriptor :=
  descriptor.fields.find? (·.name == name)

end Descriptor

mutual

def Descriptor.isVariable : Descriptor → Bool
  | .scalar .. => false
  | .string _ | .sequence .. => true
  | .array _ element _ => element.isVariable
  | .record _ _ fields => fields.isVariable

def FieldDescriptors.isVariable : FieldDescriptors → Bool
  | .nil => false
  | .cons _ element cardinality rest =>
    cardinality = .sequence || element.isVariable || rest.isVariable

end

mutual

/-- The offset behind a value that starts at `offset`; strings and sequences add nothing. -/
def Descriptor.layoutEnd : Descriptor → (offset : Nat) → Nat
  | .scalar _ kind, offset => offset + paddingAt offset kind.width + kind.width
  | .string _, offset | .sequence .., offset => offset
  | .array _ element length, offset => Nat.repeat element.layoutEnd length offset
  | .record _ _ fields, offset => fields.layoutEnd offset

def FieldDescriptors.layoutEnd : FieldDescriptors → (offset : Nat) → Nat
  | .nil, offset => offset
  | .cons _ element cardinality rest, offset =>
    rest.layoutEnd <|
      match cardinality with
      | .array length => Nat.repeat element.layoutEnd length offset
      | .one | .sequence => element.layoutEnd offset

end

namespace Descriptor

def fixedSize? (descriptor : Descriptor) : Option Nat :=
  if descriptor.isVariable then none else some (descriptor.layoutEnd 0)

def keyword : Role → String
  | .message => "message"
  | .request _ => "request"
  | .reply _ => "reply"

def text : Descriptor → String
  | .scalar _ kind => kind.name
  | .string _ => "string"
  | .array _ element length => Cardinality.text (.array length) element.name
  | .sequence _ element => Cardinality.text .sequence element.name
  | .record name role fields =>
    let items := fields.toList.map fun field =>
      field.name ++ ": " ++ field.cardinality.text field.element.name
    let body := if items.isEmpty then "" else " " ++ ", ".intercalate items ++ " "
    keyword role ++ " " ++ name ++ " \x7b" ++ body ++ "\x7d"

end Descriptor

mutual

/-- A field of array or sequence type is described by its element. -/
def WireType.descriptor : WireType → Descriptor
  | .scalar kind => .ofScalar kind
  | .string => .ofString
  | .array element length => .array "array" element.descriptor length
  | .sequence element => .sequence "sequence" element.descriptor
  | .record name role fields => .record name role fields.descriptors
  | .alias name target => target.descriptor.rename name

def Fields.descriptors : Fields → FieldDescriptors
  | .nil => .nil
  | .cons name (.array element length) rest =>
    .cons name element.descriptor (.array length) rest.descriptors
  | .cons name (.sequence element) rest =>
    .cons name element.descriptor .sequence rest.descriptors
  | .cons name type rest => .cons name type.descriptor .one rest.descriptors

end

end WireSchema
