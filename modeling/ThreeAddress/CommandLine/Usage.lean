/-!
# The arguments that exist

The names of the arguments, and the ways in which a list of arguments does not lead to a
compilation: it is refused, or it asks for something else.
-/

namespace ThreeAddress

/-- Why a list of arguments is refused. -/
inductive UsageError where
  /-- the source is missing -/
  | missingRequiredArgument
  /-- an argument that is not known, or one too many -/
  | unknownArgument
  /-- two arguments that exclude each other, or one that may be given only once -/
  | argumentConflict
  /-- a value that is missing or empty -/
  | invalidValue
  /-- a flag given too often -/
  | valueValidation
  /-- a value for a flag that takes none -/
  | tooManyValues
deriving Repr, DecidableEq

/-- Why the arguments do not ask for a compilation. -/
inductive Detour where
  | refused (error : UsageError)
  | help
  | version
deriving Repr, DecidableEq

/-- The status with which a run that does not compile ends. -/
def Detour.exitStatus : Detour → Nat
  | refused _ => 2
  | help | version => 0

/-- The arguments that stand alone. -/
inductive Flag where
  | verbose
  | quiet
  | noHeader
  | lineNumbers
  | tokens
  | help
  | version
deriving Repr, DecidableEq

/-- The arguments with a name: a flag, or the option that takes the file for the listing. -/
inductive Named where
  | flag (flag : Flag)
  | output
deriving Repr, DecidableEq

/-- The argument of a letter after one dash. -/
def Named.ofLetter? : Char → Option Named
  | 'v' => some (.flag .verbose)
  | 'q' => some (.flag .quiet)
  | 'o' => some .output
  | 'h' => some (.flag .help)
  | 'V' => some (.flag .version)
  | _ => none

/-- The argument of a word after two dashes. -/
def Named.ofWord? : String → Option Named
  | "verbose" => some (.flag .verbose)
  | "quiet" => some (.flag .quiet)
  | "output" => some .output
  | "no-header" => some (.flag .noHeader)
  | "line-numbers" => some (.flag .lineNumbers)
  | "tokens" => some (.flag .tokens)
  | "help" => some (.flag .help)
  | "version" => some (.flag .version)
  | _ => none

end ThreeAddress
