import ThreeAddress.CommandLine.Console
import ThreeAddress.CommandLine.Reading

/-!
# Runs of the command line

A run reads its arguments, sets up the compiler, and prints the tokens of the source or compiles
it. What comes of it is a report: the log, and what there is to print, or why the run fails. Its
outcome is what a caller of the program sees of the report: the exit status and what stands on the
two output streams.

Warnings and errors go to the standard error stream. The rest of the log goes to the standard
output, unless that is reserved for the listing. How an entry of the log is written, and what else
is worded by others, is the matter of a console.
-/

namespace ThreeAddress

/-- What a caller of the program sees. -/
structure Outcome where
  exitStatus : Nat
  stdout : String := ""
  stderr : String := ""
deriving Repr, DecidableEq

namespace CommandLine

/-- The version of the program. -/
def version : String := "0.0.0"

/-- The answer to a request for the version. -/
def versionText : String :=
  s!"lalgc_cli {version}\n"

/-- The outcome of a run that does not compile. -/
def detour (console : Console) (d : Detour) : Outcome :=
  match d with
  | .help => ⟨d.exitStatus, console.help, ""⟩
  | .version => ⟨d.exitStatus, versionText, ""⟩
  | .refused error => ⟨d.exitStatus, "", console.refusal error⟩

/-- Whether a log entry goes to the standard output. -/
def onStdout (arguments : Arguments) (entry : LogEntry) : Bool :=
  !arguments.listingOnStdout && Level.warn.rank < entry.event.level.rank

/-- The part of the log that the filter lets through, with the number of each entry. -/
def admitted (arguments : Arguments) (log : List LogEntry) : List (LogEntry × Nat) :=
  log.zipIdx.filter fun entry => arguments.levelFilter.admits entry.1.event.level

/-- The log lines of a run that go to the standard output, or those that do not. -/
def logText (console : Console) (arguments : Arguments) (log : List LogEntry) (toStdout : Bool) :
    String :=
  String.join
    (((admitted arguments log).filter (onStdout arguments ·.1 == toStdout)).map
      fun entry => console.logLine entry.2 entry.1)

/-- The tokens of a source, one to a line. -/
def tokenLines (console : Console) (tokens : List Token) : String :=
  String.join (tokens.map fun t => console.describe t ++ "\n")

/-- What a run has to print. -/
inductive Printout where
  | nothing
  | tokens (tokens : List Token)
  | listing (text : String)

/-- The text that is printed. -/
def Printout.text (console : Console) : Printout → String
  | nothing => ""
  | tokens ts => tokenLines console ts
  | listing text => text

/-- What comes of a run: its log, and what there is to print, or why it fails. -/
structure Report where
  log : List LogEntry
  result : Except String Printout

/-- What a caller sees of a report. -/
def Report.outcome (console : Console) (arguments : Arguments) (report : Report) : Outcome :=
  let onStdout := logText console arguments report.log true
  let onStderr := logText console arguments report.log false
  match report.result with
  | .ok printed => ⟨0, onStdout ++ printed.text console, onStderr⟩
  | .error message => ⟨1, onStdout, onStderr ++ console.failure message⟩

/-- The entries with which every run starts. -/
def preamble (arguments : Arguments) : List LogEntry :=
  [⟨.invoked arguments.describe, none⟩, ⟨.version version, none⟩]

/-- The compiler that the arguments ask for. -/
def compiler (arguments : Arguments) : Compiler where
  output := arguments.output
  listing := { header := !arguments.noHeader, lineNumbers := arguments.lineNumbers }

variable {m : Type → Type} [Monad m] [FileSystem m]

/-- The report of a run that prints the tokens of the source. -/
def reportTokens (arguments : Arguments) (log : List LogEntry) : m Report := do
  let ⟨answer, entries⟩ ← Compiler.tokenize arguments.source
  match answer with
  | .error error => return ⟨log ++ entries, .error error.message⟩
  | .ok tokens => return ⟨log ++ entries, .ok (.tokens tokens)⟩

/-- The report of a run that compiles the source. -/
def reportCompile (arguments : Arguments) (c : Compiler) (log : List LogEntry) : m Report := do
  let ⟨answer, entries⟩ ← Compiler.compile arguments.source
  let log := log ++ entries
  match answer with
  | .error error => return ⟨log, .error error.message⟩
  | .ok analysis =>
    match c.output with
    | none => return ⟨log, .ok (.listing (c.emit analysis))⟩
    | some path =>
      let ⟨written, entries⟩ ← c.writeListing analysis path
      let log := log ++ entries
      match written with
      | .error error => return ⟨log, .error error.message⟩
      | .ok () => return ⟨log, .ok .nothing⟩

/-- The report of a run with the given arguments. -/
def report (arguments : Arguments) : m Report := do
  let log := preamble arguments
  match ← (compiler arguments).configure with
  | .error error => return ⟨log, .error error.message⟩
  | .ok c => if arguments.tokens then reportTokens arguments log else reportCompile arguments c log

/-- A run of the program. -/
def run (console : Console) (arguments : List String) : m Outcome :=
  match Arguments.ofList arguments with
  | .error d => return detour console d
  | .ok arguments => return (← report arguments).outcome console arguments

end CommandLine

end ThreeAddress
