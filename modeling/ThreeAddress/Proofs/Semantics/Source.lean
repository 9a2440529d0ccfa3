import Mathlib.Logic.Function.Basic
import ThreeAddress.Proofs.Syntax.Tree

/-!
# What programs do

The meaning of source programs under any interpretation of their numbers: a type of values, a value
for each literal, an operation for each operator and an answer for each comparison. Numbers and
their arithmetic are the business of whoever runs a program; nothing that follows depends on them.

A program acts on a `World`: its variables, what is left to read, and what has been written.
Expressions have a value in a world (`Expression.eval`), unless they use a variable that has none.
Statements relate the world before to the world after (`Exec`). A statement that runs forever, that
reads when there is nothing left to read or that uses a variable without a value is related to
nothing.
-/

namespace ThreeAddress

universe u

variable {V : Type u}

/-! ## 1. Worlds -/

/-- A reading of literals, operators and comparisons. -/
structure Interpretation (V : Type u) where
  literal : String → V
  arithmetic : Arithmetic → V → V → V
  negate : V → V
  compare : Comparison → V → V → Bool

/-- What a program acts on. -/
@[ext]
structure World (V : Type u) where
  vars : String → Option V
  input : List V
  output : List V := []

namespace World

/-- Gives a variable a value. -/
def assign (w : World V) (name : String) (value : V) : World V :=
  { w with vars := Function.update w.vars name (some value) }

/-- Appends a value to what has been written. -/
def print (w : World V) (value : V) : World V :=
  { w with output := w.output ++ [value] }

/-- The world in which a program starts: each variable is the zero of its type. -/
def initial (I : Interpretation V) (symbols : List Symbol) (input : List V) : World V where
  vars name := (symbols.find? (·.name = name)).map fun s => I.literal s.type.zero
  input := input

end World

/-! ## 2. Expressions and statements -/

/-- The value of an expression. -/
def Expression.eval (I : Interpretation V) (vars : String → Option V) : Expression → Option V
  | var name => vars name
  | literal _ text => some (I.literal text)
  | negate e => (e.eval I vars).map I.negate
  | binary op l r => (l.eval I vars).bind fun v => (r.eval I vars).map (I.arithmetic op v)

/-- The outcome of a test. -/
def Test.eval (I : Interpretation V) (vars : String → Option V) (t : Test) : Option Bool :=
  (t.left.eval I vars).bind fun v => (t.right.eval I vars).map (I.compare t.comparison v)

/-- A statement takes one world to another. -/
inductive Exec (I : Interpretation V) : Statement → World V → World V → Prop
  | skip {w : World V} : Exec I .skip w w
  | read {w : World V} {name : String} {v : V} {rest : List V} (next : w.input = v :: rest) :
      Exec I (.read name) w ({ w with input := rest }.assign name v)
  | write {w : World V} {name : String} {v : V} (value : w.vars name = some v) :
      Exec I (.write name) w (w.print v)
  | assign {w : World V} {name : String} {e : Expression} {v : V}
      (value : e.eval I w.vars = some v) :
      Exec I (.assign name e) w (w.assign name v)
  | seq {w w₁ w₂ : World V} {a b : Statement} (first : Exec I a w w₁) (second : Exec I b w₁ w₂) :
      Exec I (.seq a b) w w₂
  | iteTrue {w w' : World V} {t : Test} {a b : Statement} (holds : t.eval I w.vars = some true)
      (branch : Exec I a w w') : Exec I (.ite t a b) w w'
  | iteFalse {w w' : World V} {t : Test} {a b : Statement} (fails : t.eval I w.vars = some false)
      (branch : Exec I b w w') : Exec I (.ite t a b) w w'
  | loopDone {w : World V} {t : Test} {a : Statement} (fails : t.eval I w.vars = some false) :
      Exec I (.loop t a) w w
  | loopMore {w w₁ w₂ : World V} {t : Test} {a : Statement} (holds : t.eval I w.vars = some true)
      (body : Exec I a w w₁) (again : Exec I (.loop t a) w₁ w₂) : Exec I (.loop t a) w w₂

/-- **A program, started on some input, ends in a world.** -/
def SourceProgram.Ends (I : Interpretation V) (p : SourceProgram) (input : List V) (w : World V) :
    Prop :=
  Exec I p.body (.initial I p.symbols input) w

end ThreeAddress
