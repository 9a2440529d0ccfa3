import ThreeAddress.Proofs.Syntax.Tree

/-!
# The code of a program, by recursion on its syntax

A compiler that has the whole program before it needs no holes: the length of the code of each part
is known before the jumps around it are written. The functions here are that compiler.

* `Expression.code next`: the operations of an expression in post-order, from left to right. Each
  puts its result into a temporary of its own, numbered from `next` on. `Expression.place next` is
  where the value is at the end: a variable and a literal stay where they are.
* `Statement.code base next`: the code of a statement at the index `base`. Jumps have absolute
  targets.
* `SourceProgram.code`: the variables are set up, the body runs, the program halts.

The number of temporaries of a part is the number of its operations.
-/

namespace ThreeAddress

/-! ## 1. Expressions and tests -/

namespace Expression

/-- The number of operators in an expression. -/
def operations : Expression → Nat
  | var _ | literal _ _ => 0
  | negate e => e.operations + 1
  | binary _ l r => l.operations + r.operations + 1

/-- Where the value of an expression is, once its code has run. -/
def place (next : Nat) : Expression → Operand
  | var name => .var name
  | literal _ text => .const text
  | negate e => .temp (next + e.operations)
  | binary _ l r => .temp (next + l.operations + r.operations)

/-- The code of an expression, with temporaries from `next` on. -/
def code (next : Nat) : Expression → List Quad
  | var _ | literal _ _ => []
  | negate e =>
    e.code next ++ [⟨.negate, some (e.place next), none, some (.temp (next + e.operations))⟩]
  | binary op l r =>
    l.code next ++ r.code (next + l.operations) ++
      [⟨op.operator, some (l.place next), some (r.place (next + l.operations)),
        some (.temp (next + l.operations + r.operations))⟩]

@[simp] theorem length_code (next : Nat) (e : Expression) :
    (e.code next).length = e.operations := by
  induction e generalizing next with
  | var | literal => rfl
  | negate e ih => simp [code, operations, ih]
  | binary op l r ihl ihr => simp [code, operations, ihl, ihr, Nat.add_assoc]

/-- The type of an expression, given the types of the variables. -/
def type? (declared : String → Option VarType) : Expression → Option VarType
  | var name => declared name
  | literal type _ => some type
  | negate e => e.type? declared
  | binary _ l r => do return (← l.type? declared).widen (← r.type? declared)

end Expression

namespace Test

/-- The number of operators in a test. -/
def operations (t : Test) : Nat :=
  t.left.operations + t.right.operations + 1

/-- The temporary that holds the outcome of a test. -/
def temp (next : Nat) (t : Test) : Nat :=
  next + t.left.operations + t.right.operations

/-- The code of a test, with temporaries from `next` on. -/
def code (next : Nat) (t : Test) : List Quad :=
  t.left.code next ++ t.right.code (next + t.left.operations) ++
    [⟨t.comparison.operator, some (t.left.place next),
      some (t.right.place (next + t.left.operations)), some (.temp (t.temp next))⟩]

@[simp] theorem length_code (next : Nat) (t : Test) : (t.code next).length = t.operations := by
  simp [code, operations, Nat.add_assoc]

end Test

/-! ## 2. Statements and programs -/

namespace Statement

/-- The number of operators in a statement. -/
def operations : Statement → Nat
  | skip | read _ | write _ => 0
  | assign _ e => e.operations
  | seq a b => a.operations + b.operations
  | ite t a b => t.operations + a.operations + b.operations
  | loop t a => t.operations + a.operations

/-- The length of the code of a statement. -/
def size : Statement → Nat
  | skip => 0
  | read _ | write _ => 1
  | assign _ e => e.operations + 1
  | seq a b => a.size + b.size
  | ite t a b => t.operations + 1 + a.size + 1 + b.size
  | loop t a => t.operations + 1 + a.size + 1

/-- The code of a statement at the index `base`, with temporaries from `next` on. A conditional
jumps over its first branch if the test fails, and from the end of that branch over the second; a
loop jumps out if the test fails, and from the end of its body back to the test. -/
def code (base next : Nat) : Statement → List Quad
  | skip => []
  | read name => [{ op := .read, result := some (.var name) }]
  | write name => [{ op := .write, arg1 := some (.var name) }]
  | assign name e =>
    e.code next ++ [{ op := .store, arg1 := some (e.place next), result := some (.var name) }]
  | seq a b => a.code base next ++ b.code (base + a.size) (next + a.operations)
  | ite t a b =>
    let onTrue := base + t.operations + 1
    let onFalse := onTrue + a.size + 1
    t.code next ++ Quad.jump .jumpIfFalse (some (.temp (t.temp next))) (.line onFalse) ::
      (a.code onTrue (next + t.operations) ++ Quad.jump .jump none (.line (onFalse + b.size)) ::
        b.code onFalse (next + t.operations + a.operations))
  | loop t a =>
    let body := base + t.operations + 1
    t.code next ++
      Quad.jump .jumpIfFalse (some (.temp (t.temp next))) (.line (body + a.size + 1)) ::
        (a.code body (next + t.operations) ++ [Quad.jump .jump none (.line base)])

@[simp] theorem length_code (base next : Nat) (s : Statement) :
    (s.code base next).length = s.size := by
  induction s generalizing base next with
  | skip | read | write => rfl
  | assign name e => simp [code, size]
  | seq a b iha ihb => simp [code, size, iha, ihb]
  | ite t a b iha ihb => simp [code, size, iha, ihb]; omega
  | loop t a iha => simp [code, size, iha]; omega

/-- The integer variables to which a statement assigns a real value, in the order of the
assignments. -/
def narrowings (declared : String → Option VarType) : Statement → List String
  | skip | read _ | write _ => []
  | assign name e =>
    if declared name = some .integer ∧ e.type? declared = some .real then [name] else []
  | seq a b => a.narrowings declared ++ b.narrowings declared
  | ite _ a b => a.narrowings declared ++ b.narrowings declared
  | loop _ a => a.narrowings declared

end Statement

/-- The instruction that sets up a variable. -/
def Symbol.alloc (s : Symbol) : Quad :=
  { op := .alloc, arg1 := some (.const s.type.zero), result := some (.var s.name) }

/-- **The code of a program.** -/
def SourceProgram.code (p : SourceProgram) : List Quad :=
  p.symbols.map Symbol.alloc ++ p.body.code p.symbols.length 1 ++ [{ op := .halt }]

end ThreeAddress
