import ThreeAddress.CommandLine.Arguments
import ThreeAddress.CommandLine.Usage

/-!
# Reading arguments

Arguments are read from left to right. A named argument starts with a dash: one dash and letters,
each an argument of its own, or two dashes and a word. Any other argument is the source, or the
value of the option before it.

**A value waits.** The source and the value of an option that stands apart from it are taken in
only when the next argument is acted upon, or at the end. An argument that is not known is refused
at once, and so wins over a value that would have been refused later. Contradictions between
arguments and a missing source are found last, in this order.
-/

namespace ThreeAddress

/-- A value that has not been taken in yet. -/
inductive Waiting where
  | source (value : String)
  | output (value : Option String)
deriving Repr, DecidableEq

/-- The arguments read so far. -/
structure Reading where
  verbose : Nat := 0
  quiet : Nat := 0
  source : Option String := none
  output : Option String := none
  noHeader : Bool := false
  lineNumbers : Bool := false
  tokens : Bool := false
  /-- whether an argument was read as the source -/
  sourceGiven : Bool := false
  /-- what has not been taken in yet -/
  waiting : Option Waiting := none
deriving Repr, DecidableEq

namespace Reading

/-- Refuses the arguments. -/
def refuse {α : Type} (error : UsageError) : Except Detour α :=
  .error (.refused error)

/-- How often logging can be moved the same way. -/
def countLimit : Nat := 2

/-- The value of an option or of the source, which has to say something. -/
def nonempty (value : String) : Except Detour String :=
  if value = "" then refuse .invalidValue else .ok value

/-- Takes in the file for the listing. -/
def takeOutput (r : Reading) (value : String) : Except Detour Reading :=
  if r.output.isSome then refuse .argumentConflict
  else return { r with output := some (← nonempty value) }

/-- Takes in what waits. -/
def settle (r : Reading) : Except Detour Reading :=
  let settled := { r with waiting := none }
  match r.waiting with
  | none => return settled
  | some (.source value) => return { settled with source := some (← nonempty value) }
  -- The option stood last, or right before another named argument.
  | some (.output none) => refuse .invalidValue
  | some (.output (some value)) => settled.takeOutput value

/-- One more occurrence of a flag that is counted. -/
def count (n : Nat) : Except Detour Nat :=
  if n < countLimit then .ok (n + 1) else refuse .valueValidation

/-- The occurrence of a flag that may be given once. -/
def once (given : Bool) : Except Detour Bool :=
  if given then refuse .argumentConflict else .ok true

/-- Acts on a flag. -/
def takeFlag (r : Reading) (flag : Flag) : Except Detour Reading := do
  let r ← r.settle
  match flag with
  | .verbose => return { r with verbose := ← count r.verbose }
  | .quiet => return { r with quiet := ← count r.quiet }
  | .noHeader => return { r with noHeader := ← once r.noHeader }
  | .lineNumbers => return { r with lineNumbers := ← once r.lineNumbers }
  | .tokens => return { r with tokens := ← once r.tokens }
  | .help => throw .help
  | .version => throw .version

/-- Acts on the option for the listing, with its value if it comes in the same argument. -/
def takeOption (r : Reading) (attached : Option String) : Except Detour Reading := do
  let r ← r.settle
  match attached with
  | some value => r.takeOutput value
  | none => return { r with waiting := some (.output none) }

/-- Acts on a word after two dashes, with what follows the first `=`. -/
def takeWord (r : Reading) (word : String) (attached : Option String) : Except Detour Reading :=
  match Named.ofWord? word, attached with
  | none, _ => refuse .unknownArgument
  | some .output, _ => r.takeOption attached
  -- Refused before what waits is looked at, like an unknown word.
  | some (.flag _), some _ => refuse .tooManyValues
  | some (.flag flag), none => r.takeFlag flag

/-- Acts on the letters after one dash. What follows the letter of an option is its value, with
or without `=` in front. -/
def takeLetters (r : Reading) : List Char → Except Detour Reading
  | [] => return r
  | c :: cs =>
    match Named.ofLetter? c with
    | none => refuse .unknownArgument
    | some (.flag flag) => do (← r.takeFlag flag).takeLetters cs
    | some .output =>
      match cs with
      | [] => r.takeOption none
      | '=' :: value => r.takeOption (some (String.ofList value))
      | value => r.takeOption (some (String.ofList value))

/-- Acts on an argument that is not named: the source. -/
def takePlain (r : Reading) (value : String) : Except Detour Reading := do
  if r.sourceGiven then refuse .unknownArgument
  else return { ← r.settle with sourceGiven := true, waiting := some (.source value) }

/-- A text cut at its first `=`. -/
def cutAtEquals (cs : List Char) : String × Option String :=
  let word := String.ofList (cs.takeWhile (· ≠ '='))
  match cs.dropWhile (· ≠ '=') with
  | [] => (word, none)
  | _ :: value => (word, some (String.ofList value))

/-- Acts on one argument before any `--`. -/
def take (r : Reading) (argument : String) : Except Detour Reading :=
  match argument.toList with
  | '-' :: '-' :: cs =>
    let (word, attached) := cutAtEquals cs
    r.takeWord word attached
  | '-' :: c :: cs => r.takeLetters (c :: cs)
  | _ =>
    match r.waiting with
    | some (.output none) => return { r with waiting := some (.output (some argument)) }
    | _ => r.takePlain argument

/-- Reads all arguments. After `--` no argument is a named one. -/
def takeAll (r : Reading) : List String → Except Detour Reading
  | [] => return r
  -- An option that still waits for its value does not get it from here on.
  | "--" :: rest => rest.foldlM takePlain r
  | argument :: rest => do (← r.take argument).takeAll rest

/-- What has been read, if it fits together. -/
def finish (r : Reading) : Except Detour Arguments := do
  let r ← r.settle
  if 0 < r.verbose ∧ 0 < r.quiet then refuse .argumentConflict
  else
    match r.source with
    | none => refuse .missingRequiredArgument
    | some source =>
      return {
        verbose := r.verbose, quiet := r.quiet, source, output := r.output
        noHeader := r.noHeader, lineNumbers := r.lineNumbers, tokens := r.tokens }

end Reading

/-- Reads the arguments of a run. -/
def Arguments.ofList (arguments : List String) : Except Detour Arguments := do
  (← Reading.takeAll {} arguments).finish

end ThreeAddress
