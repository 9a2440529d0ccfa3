import ThreeAddress.NonTerminal
import ThreeAddress.Quad
import ThreeAddress.VarType

/-!
# Log events

What a run reports while it works. An event is a fact about the run; its level, the component
that reports it and its text are functions of the event. Nothing in the library reads a log back:
events only ever leave.
-/

namespace ThreeAddress

/-- How severe an event is, from most to least. -/
inductive Level where
  | error
  | warn
  | info
  | debug
  | trace
deriving Repr, DecidableEq

namespace Level

/-- The name of a level in log lines. -/
def name : Level → String
  | error => "ERROR"
  | warn => "WARN"
  | info => "INFO"
  | debug => "DEBUG"
  | trace => "TRACE"

/-- The position of a level from most to least severe, starting at 1. -/
def rank : Level → Nat
  | error => 1
  | warn => 2
  | info => 3
  | debug => 4
  | trace => 5

end Level

/-- What a log lets through: nothing, or everything down to a level. -/
abbrev LevelFilter := Option Level

/-- Whether a filter lets a level through. -/
def LevelFilter.admits (filter : LevelFilter) (level : Level) : Bool :=
  filter.any (level.rank ≤ ·.rank)

/-- The parts of the program that report events. -/
inductive Component where
  | commandLine
  | compiler
  | analysis
  /-- the rules for commands, which report apart from the other rules -/
  | commandRules
  | lexer
  | symbolTable
  | generator
  | builder
deriving Repr, DecidableEq

/-- The label of a component in log lines. -/
def Component.label : Component → String
  | commandLine => "lalgc"
  | compiler => "lalgc::compiler"
  | analysis => "lalg_parsing::parser"
  | commandRules => "lalg_parsing::parser::commands"
  | lexer => "lalg_parsing::lexer"
  | symbolTable => "lalg_parsing::symbols"
  | generator => "lalg_parsing::codegen"
  | builder => "lalg_quads::program"

/-- A fact that a run reports. -/
inductive Event where
  /-- a run starts with these arguments, already in printed form -/
  | invoked (arguments : String)
  /-- the version of the program that runs -/
  | version (number : String)
  /-- a file is about to be read -/
  | reading (path : String)
  /-- a source of this many bytes is about to be analyzed -/
  | analyzing (bytes : Nat)
  /-- an analysis succeeded -/
  | emittedProgram (instructions symbols : Nat)
  /-- a listing of this many instructions was written to a file -/
  | wrote (instructions : Nat) (path : String)
  /-- a category is entered -/
  | starting (category : NonTerminal)
  /-- a category was recognized -/
  | finished (category : NonTerminal)
  /-- the name of the program was read -/
  | named (program : String)
  /-- the lexer cut a token out of the source -/
  | scanned (token : Token)
  /-- the analysis took a token -/
  | consumed (token : Token)
  /-- the analysis gave a token back -/
  | retracted (token : Token)
  /-- a variable was declared -/
  | declared (name : String) (type : VarType)
  /-- a loop begins at this instruction -/
  | loopStart (index : Nat)
  /-- a real value goes to an integer variable -/
  | narrowing (name : String)
  /-- an instruction was appended -/
  | emitted (index : Nat) (quad : Quad)
  /-- a jump is about to be patched -/
  | patching (index target : Nat)
  /-- a jump was patched -/
  | patched (index target : Nat)
deriving Repr, DecidableEq

namespace Event

/-- The level of an event. -/
def level : Event → Level
  | narrowing _ => .warn
  | analyzing _ | emittedProgram _ _ | wrote _ _ => .info
  | version _ | reading _ | declared _ _ | emitted _ _ | patching _ _ => .debug
  | invoked _ | starting _ | finished _ | named _ | scanned _ | consumed _ | retracted _
  | loopStart _ | patched _ _ => .trace

/-- The component that reports an event. -/
def component : Event → Component
  | invoked _ | version _ => .commandLine
  | reading _ | analyzing _ | emittedProgram _ _ | wrote _ _ => .compiler
  | starting _ | finished _ | named _ | consumed _ => .analysis
  | loopStart _ | narrowing _ => .commandRules
  | scanned _ | retracted _ => .lexer
  | declared _ _ => .symbolTable
  | patching _ _ => .generator
  | emitted _ _ | patched _ _ => .builder

/-- The text of an event. -/
def message : Event → String
  | invoked arguments => s!"starting lalgc with args: {arguments}"
  | version number => s!"lalgc version: {number}"
  | reading path => s!"reading {Text.quoted path}"
  | analyzing bytes => s!"analyzing {bytes} bytes of source"
  | emittedProgram instructions symbols =>
    s!"emitted {instructions} instructions for {symbols} variables"
  | wrote instructions path => s!"wrote {instructions} instructions to {Text.quoted path}"
  | starting category => s!"starting parsing {category.name}"
  | finished category => s!"finished parsing {category.name}"
  | named program => s!"analyzing program {program}"
  | scanned token => s!"scanned {token.inspect} at {token.span.describe}"
  | consumed token => s!"consumed {token.inspect}"
  | retracted token => s!"retracted {token.inspect}"
  | declared name type => s!"declared {name}: {type.name}"
  | loopStart index => s!"loop starts at {Text.fourDigits index}"
  | narrowing name => s!"assigning a real value to integer variable '{name}'"
  | emitted index quad => s!"{Text.fourDigits index} {quad.text}"
  | patching index target =>
    s!"patching jump at {Text.fourDigits index} to {Text.fourDigits target}"
  | patched index target => s!"patched jump at {Text.fourDigits index} -> {target}"

end Event

/-- The events that a filter lets through, in order. -/
def LevelFilter.select (filter : LevelFilter) (events : List Event) : List Event :=
  events.filter fun e => filter.admits e.level

end ThreeAddress
