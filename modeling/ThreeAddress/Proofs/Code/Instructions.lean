import ThreeAddress.Proofs.Code.TwoPass

/-!
# The instructions that code consists of

Quadruples can be put together in many ways that no compiler would. `Instruction` lists the ways in
which code does it: which slots of each operator are filled, and with what. Facts about the
instructions of a program that do not depend on where they stand are then a case split over this
list.

The names of the variables and the texts of the literals are up to the source. `Instruction` takes a
property of either, and the code of a program has the instructions whose names and literals have the
property, if those of the program do (`Statement.Uses`).
-/

namespace ThreeAddress

/-! ## 1. Operators and slots -/

namespace Operator

/-- Whether the operator computes a number from numbers. -/
def isArithmetic : Operator → Bool
  | add | subtract | mult | divide | negate => true
  | _ => false

/-- Whether the operator computes something, a number or the outcome of a comparison. -/
def computes (op : Operator) : Bool :=
  op.isArithmetic || op.isComparison

end Operator

@[simp] theorem Arithmetic.isArithmetic_operator (op : Arithmetic) :
    op.operator.isArithmetic = true := by
  cases op <;> rfl

@[simp] theorem Comparison.isComparison_operator (c : Comparison) :
    c.operator.isComparison = true := by
  cases c <;> rfl

@[simp] theorem Arithmetic.computes_operator (op : Arithmetic) : op.operator.computes = true := by
  cases op <;> rfl

@[simp] theorem Comparison.computes_operator (c : Comparison) : c.operator.computes = true := by
  cases c <;> rfl

/-- The operands in the argument slots. -/
def Quad.arguments (q : Quad) : List Operand :=
  q.arg1.toList ++ q.arg2.toList

/-- The operands of an instruction, in all slots. -/
def Quad.operands (q : Quad) : List Operand :=
  q.arguments ++ q.result.toList

theorem Quad.mem_arguments_of_arg1 {q : Quad} {a : Operand} (h : q.arg1 = some a) :
    a ∈ q.arguments := by
  simp [arguments, h]

theorem Quad.mem_arguments_of_arg2 {q : Quad} {a : Operand} (h : q.arg2 = some a) :
    a ∈ q.arguments := by
  simp [arguments, h]

/-! ## 2. What a program names -/

variable {names literals : String → Prop}

/-- The variables of an expression are among `names`, and its literals among `literals`. -/
def Expression.Uses (names literals : String → Prop) : Expression → Prop
  | var name => names name
  | literal _ text => literals text
  | negate e => e.Uses names literals
  | binary _ l r => l.Uses names literals ∧ r.Uses names literals

/-- The same for a test. -/
def Test.Uses (names literals : String → Prop) (t : Test) : Prop :=
  t.left.Uses names literals ∧ t.right.Uses names literals

/-- The same for a statement. -/
def Statement.Uses (names literals : String → Prop) : Statement → Prop
  | skip => True
  | read name | write name => names name
  | assign name e => names name ∧ e.Uses names literals
  | seq a b => a.Uses names literals ∧ b.Uses names literals
  | ite t a b => t.Uses names literals ∧ a.Uses names literals ∧ b.Uses names literals
  | loop t a => t.Uses names literals ∧ a.Uses names literals

theorem Expression.uses_of_forall (hn : ∀ name, names name) (hl : ∀ text, literals text)
    (e : Expression) : e.Uses names literals := by
  induction e with
  | var name => exact hn name
  | literal type text => exact hl text
  | negate e ih => exact ih
  | binary op l r ihl ihr => exact ⟨ihl, ihr⟩

theorem Statement.uses_of_forall (hn : ∀ name, names name) (hl : ∀ text, literals text)
    (s : Statement) : s.Uses names literals := by
  induction s with
  | skip => trivial
  | read name | write name => exact hn name
  | assign name e => exact ⟨hn name, e.uses_of_forall hn hl⟩
  | seq a b iha ihb => exact ⟨iha, ihb⟩
  | ite t a b iha ihb =>
    exact ⟨⟨t.left.uses_of_forall hn hl, t.right.uses_of_forall hn hl⟩, iha, ihb⟩
  | loop t a iha => exact ⟨⟨t.left.uses_of_forall hn hl, t.right.uses_of_forall hn hl⟩, iha⟩

/-! ## 3. Instructions -/

/-- An operand that has a value. -/
inductive Operand.IsValue (names literals : String → Prop) : Operand → Prop
  | var {name : String} (h : names name) : IsValue names literals (.var name)
  | const {text : String} (h : literals text) : IsValue names literals (.const text)
  | temp (t : Nat) : IsValue names literals (.temp t)

/-- The quadruple is an instruction of a program. -/
inductive Instruction (names literals : String → Prop) : Quad → Prop
  | alloc {v : Symbol} (h : names v.name) : Instruction names literals v.alloc
  | read {name : String} (h : names name) :
      Instruction names literals { op := .read, result := some (.var name) }
  | write {name : String} (h : names name) :
      Instruction names literals { op := .write, arg1 := some (.var name) }
  | store {a : Operand} {name : String} (ha : a.IsValue names literals) (h : names name) :
      Instruction names literals { op := .store, arg1 := some a, result := some (.var name) }
  | negate {a : Operand} (t : Nat) (ha : a.IsValue names literals) :
      Instruction names literals ⟨.negate, some a, none, some (.temp t)⟩
  | arithmetic {a b : Operand} (op : Arithmetic) (t : Nat) (ha : a.IsValue names literals)
      (hb : b.IsValue names literals) :
      Instruction names literals ⟨op.operator, some a, some b, some (.temp t)⟩
  | comparison {a b : Operand} (c : Comparison) (t : Nat) (ha : a.IsValue names literals)
      (hb : b.IsValue names literals) :
      Instruction names literals ⟨c.operator, some a, some b, some (.temp t)⟩
  | branch (t target : Nat) :
      Instruction names literals (.jump .jumpIfFalse (some (.temp t)) (.line target))
  | jump (target : Nat) : Instruction names literals (.jump .jump none (.line target))
  | halt : Instruction names literals { op := .halt }

theorem Operand.IsValue.mono {names' : String → Prop} {a : Operand}
    (hn : ∀ name, names name → names' name) (h : a.IsValue names literals) :
    a.IsValue names' literals := by
  cases h with
  | var h => exact .var (hn _ h)
  | const h => exact .const h
  | temp t => exact .temp t

theorem Instruction.mono {names' : String → Prop} {q : Quad} (hn : ∀ name, names name → names' name)
    (h : Instruction names literals q) : Instruction names' literals q := by
  cases h with
  | alloc h => exact .alloc (hn _ h)
  | read h => exact .read (hn _ h)
  | write h => exact .write (hn _ h)
  | store ha h => exact .store (ha.mono hn) (hn _ h)
  | negate t ha => exact .negate t (ha.mono hn)
  | arithmetic op t ha hb => exact .arithmetic op t (ha.mono hn) (hb.mono hn)
  | comparison c t ha hb => exact .comparison c t (ha.mono hn) (hb.mono hn)
  | branch t target => exact .branch t target
  | jump target => exact .jump target
  | halt => exact .halt

/-- The operators that compute something are those of the instructions with a temporary for their
result. -/
theorem Instruction.computes_iff {q : Quad} (h : Instruction names literals q) :
    q.op.computes = true ↔ ∃ t, q.result = some (.temp t) := by
  cases h with
  | arithmetic op t => exact iff_of_true op.computes_operator ⟨t, rfl⟩
  | comparison c t => exact iff_of_true c.computes_operator ⟨t, rfl⟩
  | negate t => exact iff_of_true rfl ⟨t, rfl⟩
  | _ =>
    refine iff_of_false Bool.false_ne_true ?_
    rintro ⟨t, ht⟩
    cases ht

/-- A variable that an instruction writes. -/
theorem Instruction.names_of_result {q : Quad} {name : String} (h : Instruction names literals q)
    (hr : q.result = some (.var name)) : names name := by
  cases h with
  | alloc h => cases hr; exact h
  | read h => cases hr; exact h
  | store ha h => cases hr; exact h
  | _ => cases hr

theorem Expression.isValue_place {e : Expression} (h : e.Uses names literals) (next : Nat) :
    (e.place next).IsValue names literals := by
  cases e with
  | var name => exact .var h
  | literal type text => exact .const h
  | negate e => exact .temp _
  | binary op l r => exact .temp _

/-- The code of an expression is arithmetic. -/
theorem Expression.isArithmetic_of_mem {e : Expression} {next : Nat} {q : Quad}
    (hq : q ∈ e.code next) : q.op.isArithmetic = true := by
  induction e generalizing next with
  | var | literal => simp [code] at hq
  | negate e ih =>
    simp only [code, List.mem_append, List.mem_singleton] at hq
    rcases hq with hq | rfl
    · exact ih hq
    · rfl
  | binary op l r ihl ihr =>
    simp only [code, List.mem_append, List.mem_singleton] at hq
    rcases hq with (hq | hq) | rfl
    · exact ihl hq
    · exact ihr hq
    · exact op.isArithmetic_operator

theorem Expression.instruction_of_mem {e : Expression} (h : e.Uses names literals) {next : Nat}
    {q : Quad} (hq : q ∈ e.code next) : Instruction names literals q := by
  induction e generalizing next with
  | var | literal => simp [code] at hq
  | negate e ih =>
    simp only [code, List.mem_append, List.mem_singleton] at hq
    rcases hq with hq | rfl
    · exact ih h hq
    · exact .negate _ (isValue_place (e := e) h next)
  | binary op l r ihl ihr =>
    simp only [code, List.mem_append, List.mem_singleton] at hq
    rcases hq with (hq | hq) | rfl
    · exact ihl h.1 hq
    · exact ihr h.2 hq
    · exact .arithmetic op _ (isValue_place h.1 _) (isValue_place h.2 _)

theorem Test.instruction_of_mem {t : Test} (h : t.Uses names literals) {next : Nat} {q : Quad}
    (hq : q ∈ t.code next) : Instruction names literals q := by
  simp only [code, List.mem_append, List.mem_singleton] at hq
  rcases hq with (hq | hq) | rfl
  · exact Expression.instruction_of_mem h.1 hq
  · exact Expression.instruction_of_mem h.2 hq
  · exact .comparison t.comparison _ (Expression.isValue_place h.1 _)
      (Expression.isValue_place h.2 _)

theorem Statement.instruction_of_mem {s : Statement} (h : s.Uses names literals) {base next : Nat}
    {q : Quad} (hq : q ∈ s.code base next) : Instruction names literals q := by
  induction s generalizing base next with
  | skip => simp [code] at hq
  | read name =>
    rw [List.mem_singleton.mp hq]
    exact .read h
  | write name =>
    rw [List.mem_singleton.mp hq]
    exact .write h
  | assign name e =>
    simp only [code, List.mem_append, List.mem_singleton] at hq
    rcases hq with hq | rfl
    · exact Expression.instruction_of_mem h.2 hq
    · exact .store (Expression.isValue_place h.2 next) h.1
  | seq a b iha ihb =>
    simp only [code, List.mem_append] at hq
    rcases hq with hq | hq
    · exact iha h.1 hq
    · exact ihb h.2 hq
  | ite t a b iha ihb =>
    simp only [code, List.mem_append, List.mem_cons] at hq
    rcases hq with hq | rfl | hq | rfl | hq
    · exact Test.instruction_of_mem h.1 hq
    · exact .branch ..
    · exact iha h.2.1 hq
    · exact .jump _
    · exact ihb h.2.2 hq
  | loop t a iha =>
    simp only [code, List.mem_append, List.mem_cons, List.not_mem_nil, or_false] at hq
    rcases hq with hq | rfl | hq | rfl
    · exact Test.instruction_of_mem h.1 hq
    · exact .branch ..
    · exact iha h.2 hq
    · exact .jump _

/-- **The code of a program consists of instructions**, with its own variables and literals. -/
theorem SourceProgram.instruction_of_mem {p : SourceProgram} (hs : ∀ v ∈ p.symbols, names v.name)
    (h : p.body.Uses names literals) {q : Quad} (hq : q ∈ p.code) :
    Instruction names literals q := by
  simp only [code, List.mem_append, List.mem_map, List.mem_singleton] at hq
  rcases hq with (⟨v, hv, rfl⟩ | hq) | rfl
  · exact .alloc (hs v hv)
  · exact Statement.instruction_of_mem h hq
  · exact .halt

end ThreeAddress
