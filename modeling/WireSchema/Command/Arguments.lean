import WireSchema.Command.Basic
import WireSchema.Text

/-! Reading a command line. After two hyphens nothing is an option any more. -/

namespace WireSchema

inductive Topic where
  | generate
  | check
  | describe
  deriving DecidableEq, Repr

inductive Subject where
  | program
  | command (topic : Topic)
  | help
  deriving DecidableEq, Repr

def Subject.ofTopic (topic? : Option Topic) : Subject := (topic?.map .command).getD .program

inductive Stop where
  | help (subject : Subject) (long : Bool)
  | version
  | misuse
  deriving DecidableEq, Repr

def Topic.ofName? : String → Option Topic
  | "generate" => some .generate
  | "check" => some .check
  | "describe" => some .describe
  | _ => none

namespace Arguments

inductive Flag where
  | logLevel
  | output
  | mode
  deriving DecidableEq, Repr

inductive Meaning where
  | stop (why : Stop)
  | flag (flag : Flag) (value? : Option String)
  | separator
  | plain (text : String)
  deriving DecidableEq, Repr

def isPlain (arg : String) : Bool := arg == "-" || arg.toList.head? != some '-'

def longFlag? (topic? : Option Topic) (name : String) : Option Flag :=
  if name = "log-level" then some .logLevel
  else if topic? != some .generate then none
  else if name = "out" then some .output
  else if name = "mode" then some .mode
  else none

def longMeaning (topic? : Option Topic) (body : List Char) : Meaning :=
  let (name, value?) := match Text.cutAt? '=' body with
    | some (name, value) => (String.ofList name, some (String.ofList value))
    | none => (String.ofList body, none)
  match longFlag? topic? name with
  | some flag => .flag flag value?
  | none =>
    if name = "help" && value?.isNone then .stop (.help (.ofTopic topic?) true)
    else if name = "version" && value?.isNone && topic?.isNone then .stop .version
    else .stop .misuse

/-- An option of one letter, a value of which may follow at once or behind an equals sign. -/
def shortMeaning (topic? : Option Topic) : List Char → Meaning
  | 'h' :: _ => .stop (.help (.ofTopic topic?) false)
  | 'V' :: _ => if topic?.isNone then .stop .version else .stop .misuse
  | 'o' :: value =>
    if topic? != some .generate then .stop .misuse
    else if value.isEmpty then .flag .output none
    else .flag .output (some (.ofList ((Text.dropFront? ['='] value).getD value)))
  | _ => .stop .misuse

def meaning (topic? : Option Topic) (arg : String) : Meaning :=
  if isPlain arg then .plain arg
  else match arg.toList with
    | ['-', '-'] => .separator
    | '-' :: '-' :: body => longMeaning topic? body
    | _ :: letters => shortMeaning topic? letters
    | [] => .plain arg

structure Given where
  input? : Option String
  output? : Option String
  mode? : Option Report.Mode
  logLevel? : Option String
  deriving DecidableEq, Repr

namespace Given

def empty : Given := ⟨none, none, none, none⟩

def setInput (given : Given) (path : String) : Except Stop Given :=
  if given.input?.isSome || path.isEmpty then .error .misuse
  else .ok { given with input? := some path }

def modeNamed? : String → Option Report.Mode
  | "table" => some .table
  | "expanded" => some .expanded
  | _ => none

def set (given : Given) (flag : Flag) (value : String) : Except Stop Given :=
  match flag with
  | .logLevel =>
    if given.logLevel?.isSome then .error .misuse
    else .ok { given with logLevel? := some value }
  | .output =>
    if given.output?.isSome || value.isEmpty then .error .misuse
    else .ok { given with output? := some value }
  | .mode =>
    match modeNamed? value with
    | some mode =>
      if given.mode?.isSome then .error .misuse else .ok { given with mode? := some mode }
    | none => .error .misuse

end Given

def readCommand (topic : Topic) (given : Given) : List String → Except Stop Given
  | [] => .ok given
  | arg :: rest =>
    match meaning (some topic) arg with
    | .stop why => .error why
    | .plain path => do readCommand topic (← given.setInput path) rest
    | .separator => rest.foldlM Given.setInput given
    | .flag flag (some value) => do readCommand topic (← given.set flag value) rest
    | .flag flag none =>
      match rest with
      | [] => .error .misuse
      | value :: rest =>
        if isPlain value then do readCommand topic (← given.set flag value) rest
        else .error .misuse

def build (topic : Topic) (given : Given) : Except Stop Command :=
  match given.input? with
  | none => .error .misuse
  | some input => .ok <| match topic with
    | .generate => .generate input given.output? (given.mode?.getD .table)
    | .check => .check input
    | .describe => .describe input

def helpStop : List String → Stop
  | [] => .help .program true
  | ["help"] => .help .help true
  | [name] => match Topic.ofName? name with
    | some topic => .help (.command topic) true
    | none => .misuse
  | _ => .misuse

def readProgram (given : Given) : List String → Except Stop Command
  | [] => .error .misuse
  | arg :: rest =>
    match meaning none arg with
    | .stop why => .error why
    | .separator => .error .misuse
    | .plain name =>
      match Topic.ofName? name with
      | some topic => do build topic (← readCommand topic .empty rest)
      | none => .error (if name = "help" then helpStop rest else .misuse)
    | .flag flag (some value) => do readProgram (← given.set flag value) rest
    | .flag flag none =>
      match rest with
      | [] => .error .misuse
      | value :: rest =>
        if isPlain value then do readProgram (← given.set flag value) rest else .error .misuse

end Arguments

def Command.parse (args : List String) : Except Stop Command :=
  Arguments.readProgram .empty args

end WireSchema
