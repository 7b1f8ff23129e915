import WireSchema.Command.Help

/-! The program on the real file system. -/

namespace WireSchema.Program

def readText (path : String) : IO (Except String String) :=
  try return .ok (← IO.FS.readFile path) catch e => return .error (toString e)

def writeText (path text : String) : IO (Except String Unit) :=
  try return .ok (← IO.FS.writeFile path text) catch e => return .error (toString e)

def outcome (args : List String) : IO Outcome := do
  match Command.parse args with
  | .error why => return why.outcome
  | .ok command =>
    match command.respond (← readText command.input) with
    | .finish outcome => return outcome
    | .write path text => return .written path text (← writeText path text)

end WireSchema.Program

def main (args : List String) : IO UInt32 := do
  let outcome ← WireSchema.Program.outcome args
  IO.print outcome.output
  IO.eprint outcome.errors
  return outcome.exitCode.toUInt32
