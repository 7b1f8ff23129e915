import WireSchema.Descriptor
import WireSchema.Schema.BaseType
import WireSchema.Schema.Error
import WireSchema.Text

/-! The type of a field, and its text. -/

namespace WireSchema

inductive TypeRef where
  | base (type : BaseType)
  | named (name : String)
  deriving DecidableEq, Repr

namespace TypeRef

def ofName (name : String) : TypeRef :=
  match BaseType.ofSpelling? name with
  | some type => .base type
  | none => .named name

def text : TypeRef → String
  | .base type => type.name
  | .named name => name

def name? : TypeRef → Option String
  | .base _ => none
  | .named name => some name

end TypeRef

structure FieldType where
  element : TypeRef
  cardinality : Cardinality
  deriving DecidableEq, Repr

namespace FieldType

def text (type : FieldType) : String :=
  match type.cardinality with
  | .one => type.element.text
  | .array length => "[" ++ type.element.text ++ "; " ++ toString length ++ "]"
  | .sequence => "sequence<" ++ type.element.text ++ ">"

def element? (cs : List Char) : Option TypeRef :=
  let name := String.ofList (Text.trim cs)
  if isIdentifier name then some (.ofName name) else none

/-- A length: decimal digits, underscores anywhere among them, one plus sign in front at most, and
a value that a 64-bit word holds. -/
def length? (cs : List Char) : Option Nat := do
  let digits := (Text.trim cs).filter (· != '_')
  let n ← Text.decimal? ((Text.dropFront? ['+'] digits).getD digits)
  if n < wordLimit then some n else none

def sequenceBody? (cs : List Char) : Option (List Char) := do
  let rest ← Text.dropFront? "sequence".toList cs
  Text.dropFront? ['<'] (Text.trimStart rest)

def ofChars? (cs : List Char) : Except TypeSyntax FieldType := do
  if cs.isEmpty then throw .empty
  if let some body := sequenceBody? cs then
    let some inner := Text.dropLast? '>' body | throw .sequenceForm
    let some element := element? inner | throw .element
    return ⟨element, .sequence⟩
  if let some body := Text.dropFront? ['['] cs then
    let some (before, after) := (Text.dropLast? ']' body).bind (Text.cutAt? ';')
      | throw .arrayForm
    let some element := element? before | throw .element
    let some length := length? after | throw .length
    return ⟨element, .array length⟩
  if let some body := Text.dropLast? ']' cs then
    let some (before, after) := Text.cutAt? '[' body | throw .bracket
    let some element := element? before | throw .element
    if (Text.trim after).isEmpty then return ⟨element, .sequence⟩
    let some length := length? after | throw .length
    return ⟨element, .array length⟩
  let some element := element? cs | throw .element
  return ⟨element, .one⟩

def parse (text : String) : Except SchemaError FieldType :=
  match ofChars? (Text.trim text.toList) with
  | .ok type => .ok type
  | .error why => .error (.invalidTypeSyntax text why)

end FieldType

end WireSchema
