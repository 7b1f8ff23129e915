/-! What is wrong with a schema: a cause, the place in the table, and one line of text. -/

namespace WireSchema

structure Site where
  owner : String
  field? : Option String
  deriving DecidableEq, Repr

namespace Site

def type (owner : String) : Site := ⟨owner, none⟩

def field (owner field : String) : Site := ⟨owner, some field⟩

def text (site : Site) : String :=
  match site.field? with
  | none => site.owner
  | some field => site.owner ++ "." ++ field

end Site

inductive TypeSyntax where
  | empty
  | sequenceForm
  | arrayForm
  | element
  | length
  | bracket
  | aliasTarget
  deriving DecidableEq, Repr

def TypeSyntax.reason : TypeSyntax → String
  | .empty => "empty type"
  | .sequenceForm => "expected `sequence<T>`"
  | .arrayForm => "expected `[T; N]`"
  | .element => "bad element type"
  | .length => "bad array length"
  | .bracket => "unbalanced `]`"
  | .aliasTarget => "an alias names a single value"

inductive SchemaError where
  | unknownType (site : Site) (name : String)
  | serviceAsField (site : Site) (name : String)
  | duplicateType (name : String)
  | duplicateField (owner field : String)
  | zeroLengthArray (site : Site)
  /-- A chain of references from a type back to itself; the type stands at both ends. The source
  stores the members joined by an arrow, so that paths are compared there as texts. -/
  | recursiveType (name : String) (path : List String)
  | emptyIdentity (name : String)
  | reservedTypeName (name : String)
  | invalidIdentifier (site : Site)
  | invalidTypeSyntax (text : String) (why : TypeSyntax)
  | unreadableDocument
  deriving DecidableEq, Repr

namespace SchemaError

def message : SchemaError → String
  | .unknownType site name => site.text ++ ": unknown type `" ++ name ++ "`"
  | .serviceAsField site name =>
    site.text ++ ": `" ++ name ++ "` is a service and cannot be used as a field type"
  | .duplicateType name => "type `" ++ name ++ "` is declared more than once"
  | .duplicateField owner field => owner ++ ": field `" ++ field ++ "` is declared more than once"
  | .zeroLengthArray site => site.text ++ ": fixed array length must be at least 1"
  | .recursiveType name path =>
    "type `" ++ name ++ "` contains itself (" ++ " -> ".intercalate path ++ ")"
  | .emptyIdentity name => "type `" ++ name ++ "` has an empty middleware type name"
  | .reservedTypeName name => "type name `" ++ name ++ "` is reserved for a base type"
  | .invalidIdentifier site => "`" ++ site.text ++ "` is not a valid identifier"
  | .invalidTypeSyntax text why => "cannot parse field type `" ++ text ++ "`: " ++ why.reason
  | .unreadableDocument => "schema file"

def location? : SchemaError → Option String
  | .unknownType site _ | .serviceAsField site _ | .zeroLengthArray site
  | .invalidIdentifier site => some site.text
  | .duplicateField owner _ => some owner
  | .duplicateType name | .recursiveType name _ | .emptyIdentity name
  | .reservedTypeName name => some name
  | .invalidTypeSyntax .. | .unreadableDocument => none

/-- The declared type that the error is about: its place up to the first dot. -/
def typeName? (error : SchemaError) : Option String :=
  error.location?.map fun text => .ofList (text.toList.takeWhile (· != '.'))

end SchemaError

end WireSchema
