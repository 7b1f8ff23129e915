import WireSchema.Items.Printer
import WireSchema.Table.Printer
import WireSchema.Text

/-! What is printed about a compiled schema: a summary for people, or a source file. -/

namespace WireSchema.Report

inductive Mode where
  | table
  | expanded
  deriving DecidableEq, Repr

def lifetime (compiled : CompiledSchema) (name : String) : String :=
  if compiled.borrows name then "<'a>" else ""

def padRight (width : Nat) (text : String) : String :=
  text ++ .ofList (.replicate (width - text.length) ' ')

def identityText (identity : TypeIdentity) : String :=
  "  type_name: " ++ identity.name ++ "\n  type_hash: " ++ identity.hash ++ "\n"

def fieldsText (compiled : CompiledSchema) (head : String) (fields : List Field) : String :=
  if fields.isEmpty then "  " ++ head ++ ": (empty)\n"
  else
    let width := (fields.map (·.name.utf8ByteSize)).foldl max 0
    "  " ++ head ++ ":\n" ++ "".intercalate (fields.map fun field =>
      "    " ++ padRight width field.name ++ "  " ++ padRight 24 field.type.text ++ " " ++
        (if compiled.fieldBorrows field then "variable" else "fixed") ++ "\n")

def entryText (compiled : CompiledSchema) (entry : Entry) : String :=
  let head := entry.body.keyword ++ " " ++ entry.name
  match entry.body with
  | .message fields =>
    head ++ lifetime compiled entry.name ++ "\n" ++ identityText entry.identity ++
      fieldsText compiled "fields" fields ++ "\n"
  | .alias target =>
    head ++ lifetime compiled entry.name ++ " = " ++ target.text ++ "\n" ++
      identityText entry.identity ++ "\n"
  | .service request reply =>
    let part (keyword name : String) (fields : List Field) :=
      fieldsText compiled (keyword ++ " " ++ name ++ lifetime compiled name) fields
    head ++ "\n" ++ identityText entry.identity ++
      part "request" (requestName entry.name) request ++
      part "reply" (replyName entry.name) reply ++ "\n"

def describe (compiled : CompiledSchema) : String :=
  "".intercalate (compiled.schema.entries.map (entryText compiled))

def render (compiled : CompiledSchema) (mode : Mode) (source : String) : String :=
  let body := match mode with
    | .table => Table.source compiled.schema
    | .expanded => compiled.expand
  "// Generated by hdds-cdr-gen from " ++ source ++ ". Do not edit.\n\n" ++
    String.ofList (Text.trimEnd body.toList) ++ "\n"

end WireSchema.Report
