import WireSchema.Yaml.Tree
import WireSchema.Yaml.Style

/-! Values as YAML documents, one key or item a line. -/

namespace WireSchema.Yaml

namespace Node

mutual

def afterKey (indent : Nat) : Node → List Char
  | .scalar text _ _ => ' ' :: scalarText (indent + indentStep) text
  | .list [] => " []\n".toList
  | .list (item :: rest) => '\n' :: itemLines indent (item :: rest)
  | .mapping [] => " \x7b\x7d\n".toList
  | .mapping (pair :: rest) => '\n' :: pairLines (indent + indentStep) (pair :: rest)

def afterHyphen (indent : Nat) : Node → List Char
  | .scalar text _ _ => scalarText (indent + indentStep) text
  | .list [] => "[]\n".toList
  | .list (item :: rest) => "- ".toList ++ afterHyphen (indent + indentStep) item ++
    itemLines (indent + indentStep) rest
  | .mapping [] => "\x7b\x7d\n".toList
  | .mapping ((key, value) :: rest) => key.toList ++ ':' :: afterKey (indent + indentStep) value ++
    pairLines (indent + indentStep) rest

def itemLines (indent : Nat) : List Node → List Char
  | [] => []
  | item :: rest => spaces indent ++ "- ".toList ++ afterHyphen indent item ++
    itemLines indent rest

def pairLines (indent : Nat) : List (String × Node) → List Char
  | [] => []
  | (key, value) :: rest => spaces indent ++ key.toList ++ ':' :: afterKey indent value ++
    pairLines indent rest

end

def render : Node → String
  | .scalar text _ _ => .ofList (scalarText indentStep text)
  | .list [] => "[]\n"
  | .list items => .ofList (itemLines 0 items)
  | .mapping [] => "\x7b\x7d\n"
  | .mapping pairs => .ofList (pairLines 0 pairs)

end Node

end WireSchema.Yaml
