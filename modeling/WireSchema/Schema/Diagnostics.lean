import WireSchema.Schema.Basic
import WireSchema.Schema.Cycle
import WireSchema.Schema.Error

/-! Everything that is wrong with a schema, in a fixed order. -/

namespace WireSchema

inductive NameKind where
  | value
  | service
  | servicePart
  deriving DecidableEq, Repr

namespace Entry

def generated (entry : Entry) : List (String × NameKind) :=
  match entry.body with
  | .message _ | .alias _ => [(entry.name, .value)]
  | .service .. =>
    [(entry.name, .service), (requestName entry.name, .servicePart),
      (replyName entry.name, .servicePart)]

def generatedNames (entry : Entry) : List String := entry.generated.map Prod.fst

def fieldLists (entry : Entry) : List (String × List Field) :=
  match entry.body with
  | .message fields => [(entry.name, fields)]
  | .alias _ => []
  | .service request reply => [(requestName entry.name, request), (replyName entry.name, reply)]

end Entry

namespace Schema

def generated (schema : Schema) : List (String × NameKind) :=
  schema.entries.flatMap Entry.generated

/-- What a name stands for; of several declarations the last one counts. -/
def kind? (schema : Schema) (name : String) : Option NameKind :=
  (schema.generated.reverse.find? (·.1 == name)).map Prod.snd

def nameErrors (earlier : List String) : List String → List SchemaError
  | [] => []
  | name :: rest =>
    (if (BaseType.ofSpelling? name).isSome then [.reservedTypeName name] else []) ++
      (if earlier.contains name then [.duplicateType name] else []) ++
      nameErrors (earlier ++ [name]) rest

def entryErrors (earlier : List String) : List Entry → List SchemaError
  | [] => []
  | entry :: rest =>
    (if isIdentifier entry.name then [] else [.invalidIdentifier (.type entry.name)]) ++
      (if entry.identity.name.toList.all Text.isBlank then [.emptyIdentity entry.name] else []) ++
      nameErrors earlier entry.generatedNames ++
      entryErrors (earlier ++ entry.generatedNames) rest

def referenceErrors (schema : Schema) (site : Site) : TypeRef → List SchemaError
  | .base _ => []
  | .named name =>
    match schema.kind? name with
    | some .value => []
    | some .service | some .servicePart => [.serviceAsField site name]
    | none => [.unknownType site name]

def fieldErrors (schema : Schema) (owner : String) (earlier : List String) :
    List Field → List SchemaError
  | [] => []
  | field :: rest =>
    let site := Site.field owner field.name
    (if isIdentifier field.name then [] else [.invalidIdentifier site]) ++
      (if earlier.contains field.name then [.duplicateField owner field.name] else []) ++
      (if field.type.cardinality = .array 0 then [.zeroLengthArray site] else []) ++
      schema.referenceErrors site field.type.element ++
      schema.fieldErrors owner (earlier ++ [field.name]) rest

def bodyErrors (schema : Schema) (entry : Entry) : List SchemaError :=
  match entry.body with
  | .alias target => schema.referenceErrors (.type entry.name) target
  | .message _ | .service .. =>
    entry.fieldLists.flatMap fun (owner, fields) => schema.fieldErrors owner [] fields

def diagnostics (schema : Schema) : List SchemaError :=
  entryErrors [] schema.entries ++ schema.entries.flatMap schema.bodyErrors ++ schema.cycles

end Schema

end WireSchema
