import WireSchema.Command.Arguments

/-! What the program says about itself. -/

namespace WireSchema

namespace Help

def lines (texts : List String) : String := "".intercalate (texts.map (· ++ "\n"))

def version : String := lines ["hdds-cdr-gen 0.1.0"]

def logLevelText : String :=
  "Log level (trace, debug, info, warn, error); falls back to HDDS_CDR_LOG, then RUST_LOG"

def program : String := lines
  ["Schema checker and code generator for hdds-cdr",
    "",
    "Usage: hdds-cdr-gen [OPTIONS] <COMMAND>",
    "",
    "Commands:",
    "  generate  Generate Rust source from a schema file",
    "  check     Validate a schema file and report every problem",
    "  describe  Print identity, lifetime and field layout of each type",
    "  help      Print this message or the help of the given subcommand(s)",
    "",
    "Options:",
    "      --log-level <LOG_LEVEL>  " ++ logLevelText,
    "  -h, --help                   Print help",
    "  -V, --version                Print version"]

def simple (name about : String) : String := lines
  [about,
    "",
    "Usage: hdds-cdr-gen " ++ name ++ " [OPTIONS] <FILE>",
    "",
    "Arguments:",
    "  <FILE>  Input schema YAML file",
    "",
    "Options:",
    "      --log-level <LOG_LEVEL>  " ++ logLevelText,
    "  -h, --help                   Print help"]

def generateHead : List String :=
  ["Generate Rust source from a schema file", "", "Usage: hdds-cdr-gen generate [OPTIONS] <FILE>",
    "", "Arguments:"]

def generateShort : String := lines (generateHead ++
  ["  <FILE>  Input schema YAML file",
    "",
    "Options:",
    "      --log-level <LOG_LEVEL>  " ++ logLevelText,
    "  -o, --out <FILE>             Output file (stdout if not specified)",
    "      --mode <MODE>            Output flavour [default: table] " ++
      "[possible values: table, expanded]",
    "  -h, --help                   Print help (see more with '--help')"])

def generateLong : String := lines (generateHead ++
  ["  <FILE>",
    "          Input schema YAML file",
    "",
    "Options:",
    "      --log-level <LOG_LEVEL>",
    "          " ++ logLevelText,
    "",
    "  -o, --out <FILE>",
    "          Output file (stdout if not specified)",
    "",
    "      --mode <MODE>",
    "          Output flavour",
    "",
    "          Possible values:",
    "          - table:    `hdds_cdr::schema! \x7b .. \x7d` invocation " ++
      "(needs the proc-macro at build time)",
    "          - expanded: Generated structs and trait impls, ready for `include!`",
    "          ",
    "          [default: table]",
    "",
    "  -h, --help",
    "          Print help (see a summary with '-h')"])

def onHelp : String := lines
  ["Print this message or the help of the given subcommand(s)",
    "",
    "Usage: hdds-cdr-gen help [COMMAND]...",
    "",
    "Arguments:",
    "  [COMMAND]...  Print help for the subcommand(s)"]

def text (subject : Subject) (long : Bool) : String :=
  match subject with
  | .program => program
  | .command .generate => if long then generateLong else generateShort
  | .command .check => simple "check" "Validate a schema file and report every problem"
  | .command .describe => simple "describe" "Print identity, lifetime and field layout of each type"
  | .help => onHelp

end Help

/-- How a run ends that leads to no command. Misuse is told on the error output. -/
def Stop.outcome : Stop → Outcome
  | .help subject long => .success (Help.text subject long)
  | .version => .success Help.version
  | .misuse => ⟨"", Help.program, 2⟩

end WireSchema
