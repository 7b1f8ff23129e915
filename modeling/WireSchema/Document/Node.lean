import WireSchema.Document.Basic
import WireSchema.Yaml.Parser
import WireSchema.Yaml.Printer

/-! Documents as values of YAML, every record a mapping with a fixed set of keys. -/

namespace WireSchema

open Yaml (Node)

namespace Document

def docPairs (doc? : Option String) : List (String × Node) :=
  (doc?.map fun text => ("doc", Node.text text)).toList

def headPairs (name : String) (identity : TypeIdentity) (doc? : Option String) :
    List (String × Node) :=
  [("name", .text name), ("type_name", .text identity.name), ("type_hash", .text identity.hash)] ++
    docPairs doc?

def fieldNode (field : FieldRecord) : Node :=
  .mapping ([("name", .text field.name), ("type", .text field.type)] ++ docPairs field.doc?)

def fieldsNode (fields : List FieldRecord) : Node := .list (fields.map fieldNode)

def messageNode (record : MessageRecord) : Node :=
  .mapping (headPairs record.name record.identity record.doc? ++
    [("fields", fieldsNode record.fields)])

def aliasNode (record : AliasRecord) : Node :=
  .mapping (headPairs record.name record.identity record.doc? ++ [("type", .text record.type)])

def serviceNode (record : ServiceRecord) : Node :=
  .mapping (headPairs record.name record.identity record.doc? ++
    [("request", fieldsNode record.request), ("reply", fieldsNode record.reply)])

def sectionPairs (key : String) (items : List Node) : List (String × Node) :=
  if items.isEmpty then [] else [(key, .list items)]

def toNode (document : Document) : Node :=
  .mapping (sectionPairs "messages" (document.messages.map messageNode) ++
    sectionPairs "aliases" (document.aliases.map aliasNode) ++
    sectionPairs "services" (document.services.map serviceNode))

/-- The pairs of a mapping that has only `keys`, each at most once. Nothing at all counts as a
mapping without pairs. -/
def pairs? (keys : List String) : Node → Option (List (String × Node))
  | .mapping pairs =>
    let found := pairs.map Prod.fst
    if found.all keys.contains && found.Nodup then some pairs else none
  | .scalar "" true _ => some []
  | _ => none

def items? : Node → Option (List Node)
  | .list items => some items
  | .scalar "" true _ => some []
  | _ => none

def text? : Node → Option String
  | .scalar text _ _ => some text
  | _ => none

def nullTag : Yaml.Octets := Yaml.octets "tag:yaml.org,2002:null"

def optionalText? : Node → Option (Option String)
  | .scalar text false _ => some (some text)
  | .scalar text true none => some (if text.isEmpty || Yaml.isNull text then none else some text)
  | .scalar text true (some tag) =>
    if tag != nullTag then some (some text) else if Yaml.isNull text then some none else none
  | _ => none

def requiredText? (pairs : List (String × Node)) (key : String) : Option String := do
  text? (← pairs.lookup key)

def doc? (pairs : List (String × Node)) : Option (Option String) :=
  match pairs.lookup "doc" with
  | none => some none
  | some node => optionalText? node

def list? {α : Type} (item? : Node → Option α) (pairs : List (String × Node)) (key : String) :
    Option (List α) :=
  match pairs.lookup key with
  | none => some []
  | some node => do (← items? node).mapM item?

def field? (node : Node) : Option FieldRecord := do
  let pairs ← pairs? ["name", "type", "doc"] node
  return ⟨← requiredText? pairs "name", ← requiredText? pairs "type", ← doc? pairs⟩

def identity? (pairs : List (String × Node)) : Option TypeIdentity := do
  return ⟨← requiredText? pairs "type_name", ← requiredText? pairs "type_hash"⟩

def messageOfNode? (node : Node) : Option MessageRecord := do
  let pairs ← pairs? ["name", "type_name", "type_hash", "doc", "fields"] node
  return ⟨← requiredText? pairs "name", ← identity? pairs, ← doc? pairs,
    ← list? field? pairs "fields"⟩

def aliasOfNode? (node : Node) : Option AliasRecord := do
  let pairs ← pairs? ["name", "type_name", "type_hash", "doc", "type"] node
  return ⟨← requiredText? pairs "name", ← identity? pairs, ← doc? pairs,
    ← requiredText? pairs "type"⟩

def serviceOfNode? (node : Node) : Option ServiceRecord := do
  let pairs ← pairs? ["name", "type_name", "type_hash", "doc", "request", "reply"] node
  return ⟨← requiredText? pairs "name", ← identity? pairs, ← doc? pairs,
    ← list? field? pairs "request", ← list? field? pairs "reply"⟩

def ofNode? (node : Node) : Option Document := do
  let pairs ← pairs? ["messages", "aliases", "services"] node
  return ⟨← list? messageOfNode? pairs "messages", ← list? aliasOfNode? pairs "aliases",
    ← list? serviceOfNode? pairs "services"⟩

end Document

namespace Schema

/-- The schema in a file, or what is wrong with the file. Whether the schema itself has faults is
left to its diagnostics. -/
def ofYaml (text : String) : Except SchemaError Schema :=
  match (Yaml.parse text).bind Document.ofNode? with
  | some document => document.toSchema
  | none => .error .unreadableDocument

def toYaml (schema : Schema) : String := (Document.ofSchema schema).toNode.render

end Schema

end WireSchema
