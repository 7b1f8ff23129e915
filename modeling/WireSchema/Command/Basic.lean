import WireSchema.SchemaFile

/-! What the program can be asked to do. A command reads one file and may write one file. -/

namespace WireSchema

inductive Command where
  | generate (input : String) (output? : Option String) (mode : Report.Mode)
  | check (input : String)
  | describe (input : String)
  deriving DecidableEq, Repr

structure Outcome where
  output : String
  errors : String
  exitCode : Nat
  deriving DecidableEq, Repr

namespace Outcome

def success (output : String) : Outcome := ⟨output, "", 0⟩

def failure (message : String) (reason? : Option String) : Outcome :=
  let reason := (reason?.map fun text => "\n\nCaused by:\n    " ++ text).getD ""
  ⟨"", "Error: " ++ message ++ reason ++ "\n", 1⟩

def ofFileError (error : FileError) : Outcome := failure error.message error.reason?

def invalid (path : String) (errors : List SchemaError) : Outcome :=
  let lines := (errors.zipIdx 1).map fun (error, n) =>
    "  " ++ toString n ++ ". " ++ error.message ++ "\n"
  ⟨"", "[ERROR] Schema is invalid: " ++ path ++ "\n\n" ++ "".intercalate lines ++
    "\nError: Validation failed with " ++ toString errors.length ++ " error(s)\n", 1⟩

def written (path text : String) (result : Except String Unit) : Outcome :=
  match result with
  | .ok () =>
    success ("[OK] Generated " ++ path ++ " (" ++ toString text.utf8ByteSize ++ " bytes)\n")
  | .error reason => failure ("failed to write " ++ path) (some reason)

end Outcome

inductive Response where
  | finish (outcome : Outcome)
  | write (path text : String)
  deriving DecidableEq, Repr

namespace Command

def input : Command → String
  | .generate input _ _ | .check input | .describe input => input

def respond (command : Command) (content : Except String String) : Response :=
  match command with
  | .generate input output? mode =>
    match SchemaFile.generate input content mode with
    | .error e => .finish (.ofFileError e)
    | .ok text =>
      match output? with
      | some path => .write path text
      | none => .finish (.success text)
  | .check input =>
    match SchemaFile.check input content with
    | .error e => .finish (.ofFileError e)
    | .ok [] => .finish (.success ("[OK] Schema is valid: " ++ input ++ "\n"))
    | .ok errors => .finish (.invalid input errors)
  | .describe input =>
    match SchemaFile.compile input content with
    | .error e => .finish (.ofFileError e)
    | .ok compiled => .finish (.success (Report.describe compiled))

end Command

end WireSchema
