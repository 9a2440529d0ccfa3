import ThreeAddress.Analysis.Basic
import ThreeAddress.Files.System
import ThreeAddress.Program.Listing

/-!
# Compiling files

A compiler is set up with the file for its listings, which is checked beforehand: it must not be a
directory, and the directory it is to stand in has to exist. It then compiles sources, from text
or from files, and writes listings.

Every action gives its answer together with the log entries it made.
-/

namespace ThreeAddress

/-- An event, and the file whose compilation reported it, if any. -/
structure LogEntry where
  event : Event
  compiling : Option String := none
deriving Repr, DecidableEq

/-- The log line of an entry, without the time. -/
def LogEntry.line (e : LogEntry) : String :=
  let scope := match e.compiling with
    | some path => "compile\x7bpath=" ++ Text.quoted path ++ "\x7d: "
    | none => ""
  Text.padLeft ' ' 5 e.event.level.name ++ " " ++ scope ++ e.event.component.label ++ ": "
    ++ e.event.message ++ "\n"

/-- The answer of an action, and its log entries. -/
structure Logged (α : Type) where
  answer : α
  entries : List LogEntry := []

/-- The reason of a failed compilation. -/
inductive CompileErrorKind where
  | file (error : FileError)
  | analysis (diagnostic : Diagnostic)
  | fault (fault : Fault)
deriving Repr, DecidableEq

/-- A failed compilation, with the file it is about, if any. -/
structure CompileError where
  kind : CompileErrorKind
  path : Option String := none
deriving Repr, DecidableEq

/-- The text of a failed compilation. -/
def CompileError.message (e : CompileError) : String :=
  let subject := match e.path with
    | some path => path ++ ": "
    | none => ""
  subject ++ match e.kind with
    | .file error => error.message
    | .analysis diagnostic => diagnostic.message
    | .fault fault => fault.message

/-- Why a path cannot be used for listings. -/
inductive OutputError where
  | directoryDoesNotExist (directory : String) (error : FileError)
  | directoryIsNotADirectory (directory : String)
  | isADirectory (path : String)
deriving Repr, DecidableEq

/-- The text about an unusable path. -/
def OutputError.message : OutputError → String
  | directoryDoesNotExist directory error =>
    s!"{Text.quoted directory} does not exist: {error.message}"
  | directoryIsNotADirectory directory => s!"{Text.quoted directory} is not a directory"
  | isADirectory path => s!"{Text.quoted path} is a directory, expected a file"

/-- Where listings go, and what they show. Without a file they go to the standard output. -/
structure Compiler where
  output : Option String := none
  listing : Listing := {}
deriving Repr, DecidableEq

namespace Compiler

variable {m : Type → Type} [Monad m] [FileSystem m]

/-- The directory in which a file is to stand: the working directory if the path has one step. -/
def outputDirectory (path : String) : String :=
  match Path.parent? path with
  | none | some "" => "."
  | some parent => parent

/-- Checks that listings can go to a file. -/
def checkOutput (path : String) : m (Except OutputError Unit) := do
  match ← FileSystem.stat path with
  | .ok .directory => return .error (.isADirectory path)
  | _ =>
    let directory := outputDirectory path
    match ← FileSystem.stat directory with
    | .error error => return .error (.directoryDoesNotExist directory error)
    | .ok .file => return .error (.directoryIsNotADirectory directory)
    | .ok .directory => return .ok ()

/-- Sets up a compiler. -/
def configure (compiler : Compiler) : m (Except OutputError Compiler) := do
  match compiler.output with
  | none => return .ok compiler
  | some path => return (← checkOutput path).map fun () => compiler

/-- Compiles a source text. -/
def compileSource (source : String) : Except CompileError Analysis × List Event :=
  let start := Event.analyzing source.utf8ByteSize
  match Analysis.ofSource source with
  | (.ok analysis, events) =>
    (.ok analysis,
      start :: events ++ [.emittedProgram analysis.program.size analysis.symbols.size])
  | (.error (.rejected diagnostic), events) =>
    (.error { kind := .analysis diagnostic }, start :: events)
  | (.error (.fault fault), events) => (.error { kind := .fault fault }, start :: events)

/-- The tokens of a source text. -/
def tokenizeSource (source : String) : Except CompileError (List Token) × List Event :=
  let run := (Lexer.ofSource source).tokens
  let answer := match run.answer with
    | .ok tokens => .ok tokens
    | .error error =>
      match Location.resolve source error.span with
      | .ok location => .error { kind := .analysis { cause := .lexical error, location } }
      | .error fault => .error { kind := .fault fault }
  (answer, run.events)

/-- Reads a source file and treats its text. The path goes with every error. -/
def onFile {α : Type} (treat : String → Except CompileError α × List Event) (path : String) :
    m (Except CompileError α × List Event) := do
  match ← FileSystem.read path with
  | .error error => return (.error ⟨.file error, some path⟩, [.reading path])
  | .ok source =>
    let (answer, events) := treat source
    return (answer.mapError ({ · with path := some path }), .reading path :: events)

/-- Compiles a source file. -/
def compile (path : String) : m (Logged (Except CompileError Analysis)) := do
  let (answer, events) ← onFile compileSource path
  return ⟨answer, events.map (⟨·, some path⟩)⟩

/-- The tokens of a source file. -/
def tokenize (path : String) : m (Logged (Except CompileError (List Token))) := do
  let (answer, events) ← onFile tokenizeSource path
  return ⟨answer, events.map (⟨·, none⟩)⟩

/-- The listing of a compiled program. -/
def emit (compiler : Compiler) (analysis : Analysis) : String :=
  compiler.listing.render analysis.program

/-- Writes the listing of a compiled program to a file. -/
def writeListing (compiler : Compiler) (analysis : Analysis) (path : String) :
    m (Logged (Except CompileError Unit)) := do
  match ← FileSystem.write path (compiler.emit analysis) with
  | .error error => return ⟨.error ⟨.file error, some path⟩, []⟩
  | .ok () => return ⟨.ok (), [⟨.wrote analysis.program.size path, none⟩]⟩

end Compiler

end ThreeAddress
