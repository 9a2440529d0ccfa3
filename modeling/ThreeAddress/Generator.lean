import ThreeAddress.Program.Builder

/-!
# Generating code

The generator has one call for each kind of instruction that the source language needs. It draws
a fresh temporary for the result of every operation, and it leaves the bookkeeping of jumps to the
builder.
-/

namespace ThreeAddress

/-- A computed value: where it is, and its type. -/
structure Value where
  operand : Operand
  type : VarType
deriving Repr, DecidableEq

/-- The outcome of a comparison, held in a temporary. -/
structure Condition where
  temp : Nat
deriving Repr, DecidableEq

/-- A generator in the course of its work. -/
structure Generator where
  builder : Builder := {}
  /-- the number of temporaries drawn so far -/
  temps : Nat := 0
deriving Repr, DecidableEq

namespace Generator

/-- The number of values of the counter of temporaries. -/
def tempLimit : Nat := UInt32.size

/-- The index of the next instruction. -/
def nextIndex (g : Generator) : Nat :=
  g.builder.nextIndex

/-- A call on the builder of a generator. -/
def onBuilder {α : Type} (g : Generator) (call : Builder → Step Builder α) : Step Generator α :=
  let ⟨answer, builder, events⟩ := call g.builder
  ⟨answer, { g with builder }, events⟩

/-- Appends an instruction. -/
def emit (g : Generator) (quad : Quad) : Step Generator Nat :=
  g.onBuilder (·.emit quad)

/-- Draws a fresh temporary and appends the instruction that computes it. -/
def compute {α : Type} (g : Generator) (quad : Operand → Quad) (answer : Nat → α) :
    Step Generator (Except Fault α) :=
  let temp := g.temps + 1
  if temp < tempLimit then
    let ⟨_, g, events⟩ := { g with temps := temp }.emit (quad (.temp temp))
    ⟨.ok (answer temp), g, events⟩
  else ⟨.error .additionOverflow, g, []⟩

/-- Sets up a variable with the zero of its type. -/
def allocate (g : Generator) (name : String) (type : VarType) : Step Generator Nat :=
  g.emit { op := .alloc, arg1 := some (.const type.zero), result := some (.var name) }

/-- Reads an input into a variable. -/
def read (g : Generator) (name : String) : Step Generator Nat :=
  g.emit { op := .read, result := some (.var name) }

/-- Writes a variable to the output. -/
def write (g : Generator) (name : String) : Step Generator Nat :=
  g.emit { op := .write, arg1 := some (.var name) }

/-- Copies a value into a variable. -/
def store (g : Generator) (name : String) (value : Value) : Step Generator Nat :=
  g.emit { op := .store, arg1 := some value.operand, result := some (.var name) }

/-- Computes a binary operation. -/
def binary (g : Generator) (op : Operator) (left right : Value) :
    Step Generator (Except Fault Value) :=
  g.compute
    (fun temp => ⟨op, some left.operand, some right.operand, some temp⟩)
    (fun temp => ⟨.temp temp, left.type.widen right.type⟩)

/-- Computes the opposite of a value. -/
def negate (g : Generator) (value : Value) : Step Generator (Except Fault Value) :=
  g.compute
    (fun temp => ⟨.negate, some value.operand, none, some temp⟩)
    (fun temp => ⟨.temp temp, value.type⟩)

/-- Compares two values. -/
def compare (g : Generator) (op : Operator) (left right : Value) :
    Step Generator (Except Fault Condition) :=
  if op.isComparison then
    g.compute
      (fun temp => ⟨op, some left.operand, some right.operand, some temp⟩)
      (fun temp => ⟨temp⟩)
  else ⟨.error (.notAComparison op), g, []⟩

/-- Jumps, to a target to be patched, if a condition does not hold. -/
def jumpIfFalse (g : Generator) (condition : Condition) :
    Step Generator (Except Fault PendingJump) :=
  g.onBuilder (·.emitJump .jumpIfFalse (some (.temp condition.temp)))

/-- Jumps to a target to be patched. -/
def jump (g : Generator) : Step Generator (Except Fault PendingJump) :=
  g.onBuilder (·.emitJump .jump none)

/-- Jumps to a known instruction. -/
def jumpTo (g : Generator) (target : Nat) : Step Generator (Except Fault Nat) :=
  g.onBuilder (·.emitJumpTo .jump none target)

/-- Patches a jump to the next instruction. -/
def patchHere (g : Generator) (jump : PendingJump) :
    Step Generator (Except PatchFailure Unit) :=
  let target := g.nextIndex
  let ⟨answer, g, events⟩ := g.onBuilder (·.patch jump target)
  ⟨answer, g, .patching jump.index target :: events⟩

/-- Ends the program. -/
def halt (g : Generator) : Step Generator Nat :=
  g.emit { op := .halt }

/-- The program, if no jump waits for its target. -/
def finish (g : Generator) : Except UnpatchedJumps Program :=
  g.builder.finish

end Generator

end ThreeAddress
