import ThreeAddress.CommandLine.Usage
import ThreeAddress.Compiler

/-!
# What a run prints with

Some texts of a run are not its own. The reader of arguments words its refusals and the help, the
logger puts a time in front of each entry and marks its level, the color of a token kind depends on
where the standard output goes, and the report about a failure comes with a trace of the program.
A console stands for all of this. Its texts are parameters: nothing that is said about a run
depends on them, except where they stand.

The plain console is one without colors and times. Its wording of the help, of refusals and of
failures is its own, and its log lines are what is left of a logger's lines without the times.
-/

namespace ThreeAddress

/-- The texts that a run leaves to others. -/
structure Console where
  /-- whether the standard output supports colors -/
  colors : Bool
  /-- a text in the color of token kinds -/
  cyan : String → String
  /-- the line of a log entry, with the number of entries made before it, which gives the time -/
  logLine : Nat → LogEntry → String
  /-- the answer to a request for help -/
  help : String
  /-- the text about arguments that are refused -/
  refusal : UsageError → String
  /-- the report about a failure, by its message -/
  failure : String → String

namespace Console

/-- A text that stands out if the standard output supports colors. -/
def highlight (console : Console) (text : String) : String :=
  if console.colors then console.cyan text else text

/-- The sentence about a token, with its kind highlighted. -/
def describe (console : Console) (t : Token) : String :=
  s!"Token '{t.text}' is a {console.highlight t.kind.name}."

/-- The help of the plain console. -/
def plainHelp : String :=
  "Compiles lalg programs into three-address code listings\n\n"
    ++ "Usage: lalgc [OPTIONS] <SOURCE>\n\n"
    ++ "Arguments:\n"
    ++ "  <SOURCE>  The source file to compile\n\n"
    ++ "Options:\n"
    ++ "  -v, --verbose...       Log more, `-vv` logs every token and non terminal\n"
    ++ "  -q, --quiet...         Log less, `-qq` turns logging off\n"
    ++ "  -o, --output <OUTPUT>  Write the listing to this file instead of stdout\n"
    ++ "      --no-header        Don't start the listing with the "
    ++ "`operator; argument1; argument2; result` row\n"
    ++ "      --line-numbers     Prefix every instruction with its index\n"
    ++ "      --tokens           Print every token of the source instead of compiling it\n"
    ++ "  -h, --help             Print help\n"
    ++ "  -V, --version          Print version\n"

/-- The refusals of the plain console. -/
def plainRefusal : UsageError → String
  | .missingRequiredArgument => "error: the source file is missing\n"
  | .unknownArgument => "error: an argument is not known\n"
  | .argumentConflict => "error: arguments exclude each other\n"
  | .invalidValue => "error: a value is missing\n"
  | .valueValidation => "error: a flag is given too often\n"
  | .tooManyValues => "error: a flag takes no value\n"

/-- The console without colors and times. -/
def plain : Console where
  colors := false
  cyan := id
  logLine _ entry := entry.line
  help := plainHelp
  refusal := plainRefusal
  failure message := "Error: " ++ message ++ "\n"

end Console

end ThreeAddress
