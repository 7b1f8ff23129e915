import WireSchema.Schema.Basic
import WireSchema.Text
import WireSchema.Text.Quoted

/-! Schemas as tables. -/

namespace WireSchema.Table

def docsText (indent : String) (docs : List String) : String :=
  "".intercalate <| docs.map fun line =>
    indent ++ (if line.isEmpty then "///" else "/// " ++ line) ++ "\n"

def fieldsText (indent : String) (fields : List Field) : String :=
  "".intercalate <| fields.map fun field =>
    docsText indent field.docs ++ indent ++ field.name ++ ": " ++ field.type.text ++ ",\n"

def bodyText : Body → String
  | .message fields => " \x7b\n" ++ fieldsText "    " fields ++ "\x7d"
  | .alias target => " " ++ target.text ++ ";"
  | .service request reply =>
    " \x7b\n    request \x7b\n" ++ fieldsText "        " request ++
      "    \x7d\n    reply \x7b\n" ++ fieldsText "        " reply ++ "    \x7d\n\x7d"

def entryText (entry : Entry) : String :=
  docsText "" entry.docs ++ entry.body.keyword ++ " " ++ entry.name ++ " = (" ++
    Text.Quoted.shown entry.identity.name ++ ", " ++ Text.Quoted.shown entry.identity.hash ++
    ")" ++ bodyText entry.body

def text (schema : Schema) : String :=
  "\n\n".intercalate (schema.entries.map entryText)

def source (schema : Schema) : String :=
  let lines := (Text.lines (text schema).toList).map fun line =>
    if line.isEmpty then "\n" else "    " ++ String.ofList line ++ "\n"
  "hdds_cdr::schema! \x7b\n" ++ "".intercalate lines ++ "\x7d\n"

end WireSchema.Table
