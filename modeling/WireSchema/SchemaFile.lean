import WireSchema.Document.Node
import WireSchema.Report

/-! What is made of a schema file, given its path and what reading it gave. -/

namespace WireSchema

inductive FileError where
  | unreadable (path reason : String)
  | malformed (path : String) (error : SchemaError)
  | invalid (path : String) (errors : List SchemaError)
  deriving DecidableEq, Repr

namespace FileError

def message : FileError → String
  | .unreadable path _ => "failed to read schema file " ++ path
  | .malformed path _ => "failed to parse schema file " ++ path
  | .invalid path errors =>
    path ++ " is invalid:" ++ "".intercalate (errors.map fun e => "\n  - " ++ e.message)

def reason? : FileError → Option String
  | .unreadable _ reason => some reason
  | .malformed _ error => some error.message
  | .invalid .. => none

end FileError

namespace SchemaFile

/-- The last part of a path that names something; the whole path if there is none. -/
def baseName (path : String) : String :=
  let parts := (path.toList.splitOn '/').filter fun part => !part.isEmpty && part != ['.']
  match parts.getLast? with
  | some ['.', '.'] | none => path
  | some part => .ofList part

variable (path : String) (content : Except String String)

def load : Except FileError Schema :=
  match content with
  | .error reason => .error (.unreadable path reason)
  | .ok text => (Schema.ofYaml text).mapError (.malformed path)

def check : Except FileError (List SchemaError) := do
  return (← load path content).diagnostics

def compile : Except FileError CompiledSchema := do
  let schema ← load path content
  schema.compile.mapError fun _ => .invalid path schema.diagnostics

def generate (mode : Report.Mode) : Except FileError String := do
  return Report.render (← compile path content) mode (baseName path)

end SchemaFile

end WireSchema
