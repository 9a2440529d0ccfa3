import ThreeAddress.Log

/-!
# Command-line arguments

What a run is asked to do: the source, the file for the listing, what the listing shows, and how
much is logged.
-/

namespace ThreeAddress

/-- What a run is asked to do. -/
structure Arguments where
  verbose : Nat
  quiet : Nat
  source : String
  output : Option String
  noHeader : Bool
  lineNumbers : Bool
  tokens : Bool
deriving Repr, DecidableEq

namespace Arguments

/-- How far logging is moved from its default, from -2 to 2. -/
def verbosity (a : Arguments) : Int :=
  a.verbose - a.quiet

/-- What the log lets through. -/
def levelFilter (a : Arguments) : LevelFilter :=
  if a.verbosity ≤ -2 then none
  else if a.verbosity = -1 then some .error
  else if a.verbosity = 0 then some .info
  else if a.verbosity = 1 then some .debug
  else some .trace

/-- Whether the standard output is reserved for the listing or the tokens. -/
def listingOnStdout (a : Arguments) : Bool :=
  a.tokens || a.output.isNone

/-- The arguments as the log shows them. -/
def describe (a : Arguments) : String :=
  let output := match a.output with
    | none => "None"
    | some path => s!"Some({Text.quoted path})"
  s!"Args \x7b logging: LoggingArgs \x7b verbose: {a.verbose}, quiet: {a.quiet} \x7d, "
    ++ s!"source: {Text.quoted a.source}, output: {output}, no_header: {a.noHeader}, "
    ++ s!"line_numbers: {a.lineNumbers}, tokens: {a.tokens} \x7d"

end Arguments

end ThreeAddress
