import ThreeAddress.Program.Basic
import ThreeAddress.Step

/-!
# Building programs

A builder appends instructions. A jump whose target is not known yet is appended with a numbered
hole in its result slot, and the caller gets a handle with which to patch it later. A program is
finished only when the count of holes is back to zero.

The count is kept beside the instructions: a hole that comes in with a given quadruple is not
counted, and it is patched like the others.
-/

namespace ThreeAddress

/-- The handle of a jump that waits for its target. -/
structure PendingJump where
  index : Nat
  hole : Nat
deriving Repr, DecidableEq

/-- Why a jump cannot be patched. -/
inductive PatchError where
  | noSuchInstruction (index : Nat)
  | notPending (index : Nat)
  | targetOutOfRange (target size : Nat)
deriving Repr, DecidableEq

/-- The text of a refusal to patch. -/
def PatchError.message : PatchError → String
  | noSuchInstruction index => s!"no instruction at index {index}"
  | notPending index => s!"instruction {index} has no pending jump target"
  | targetOutOfRange target size =>
    s!"jump target {target} is past the end of the program ({size} instructions)"

/-- How patching fails: refused, which changes nothing, or by a fault of the count. -/
inductive PatchFailure where
  | refused (error : PatchError)
  | fault (fault : Fault)
deriving Repr, DecidableEq

/-- The jumps without a target, by index. -/
structure UnpatchedJumps where
  indices : List Nat
deriving Repr, DecidableEq

/-- The text about jumps without a target. -/
def UnpatchedJumps.message (u : UnpatchedJumps) : String :=
  "jumps at instructions " ++ ", ".intercalate (u.indices.map toString) ++ " were never patched"

/-- A program in the making. -/
structure Builder where
  quads : Array Quad := #[]
  /-- how many jumps wait for their target -/
  pending : Nat := 0
  /-- the number of the next hole -/
  nextHole : Nat := 0
deriving Repr, DecidableEq

namespace Builder

/-- The index of the next instruction. -/
def nextIndex (b : Builder) : Nat :=
  b.quads.size

/-- Appends an instruction and gives its index. -/
def emit (b : Builder) (quad : Quad) : Step Builder Nat :=
  ⟨b.nextIndex, { b with quads := b.quads.push quad }, [.emitted b.nextIndex quad]⟩

/-- Appends a jump that waits for its target. -/
def emitJump (b : Builder) (op : Operator) (condition : Option Operand) :
    Step Builder (Except Fault PendingJump) :=
  if op.isJump then
    let hole := b.nextHole
    let b := { b with nextHole := hole + 1, pending := b.pending + 1 }
    let ⟨index, b, events⟩ := b.emit (Quad.jump op condition (.pending hole))
    ⟨.ok ⟨index, hole⟩, b, events⟩
  else ⟨.error (.notAJump op), b, []⟩

/-- Appends a jump to a known instruction. -/
def emitJumpTo (b : Builder) (op : Operator) (condition : Option Operand) (target : Nat) :
    Step Builder (Except Fault Nat) :=
  if op.isJump then
    let ⟨index, b, events⟩ := b.emit (Quad.jump op condition (.line target))
    ⟨.ok index, b, events⟩
  else ⟨.error (.notAJump op), b, []⟩

/-- Fills the hole of a jump with a target, which may be the index after the last instruction.
The hole is filled before the count goes down. -/
def patch (b : Builder) (jump : PendingJump) (target : Nat) :
    Step Builder (Except PatchFailure Unit) :=
  if b.quads.size < target then
    ⟨.error (.refused (.targetOutOfRange target b.quads.size)), b, []⟩
  else
    match b.quads[jump.index]? with
    | none => ⟨.error (.refused (.noSuchInstruction jump.index)), b, []⟩
    | some quad =>
      if quad.result = some (.target (.pending jump.hole)) then
        let quad := { quad with result := some (.target (.line target)) }
        let b := { b with quads := b.quads.setIfInBounds jump.index quad }
        match b.pending with
        | 0 => ⟨.error (.fault .subtractionOverflow), b, []⟩
        | pending + 1 => ⟨.ok (), { b with pending }, [.patched jump.index target]⟩
      else ⟨.error (.refused (.notPending jump.index)), b, []⟩

/-- The indices of the instructions whose target is not known. -/
def pendingIndices (b : Builder) : List Nat :=
  (b.quads.toList.zipIdx.filter (·.1.isPending)).map Prod.snd

/-- The program, if no jump waits for its target. -/
def finish (b : Builder) : Except UnpatchedJumps Program :=
  if 0 < b.pending then .error ⟨b.pendingIndices⟩ else .ok ⟨b.quads⟩

end Builder

end ThreeAddress
