import ThreeAddress.Program.Basic
import ThreeAddress.Proofs.Semantics.Source

/-!
# What quadruples do

A machine that runs three-address code. It has the world of a program, temporaries beside the
variables, and the index of the next instruction. A temporary holds a value or the outcome of a
comparison. The machine takes one instruction after the other (`Machine.step`); it stops where there
is no instruction, where the instruction makes no sense, and at `halt`.
-/

namespace ThreeAddress

universe u

variable {V : Type u}

/-! ## 1. Instructions -/

/-- What a temporary holds. -/
inductive Cell (V : Type u) where
  | value (v : V)
  | truth (b : Bool)

/-- A machine that runs quadruples. -/
structure Machine (V : Type u) extends World V where
  temps : Nat → Option (Cell V)
  pc : Nat

/-- What a binary operator computes. -/
def Interpretation.apply (I : Interpretation V) (v w : V) : Operator → Option (Cell V)
  | .add => some (.value (I.arithmetic .add v w))
  | .subtract => some (.value (I.arithmetic .subtract v w))
  | .mult => some (.value (I.arithmetic .mult v w))
  | .divide => some (.value (I.arithmetic .divide v w))
  | .eq => some (.truth (I.compare .eq v w))
  | .neq => some (.truth (I.compare .neq v w))
  | .gte => some (.truth (I.compare .gte v w))
  | .lte => some (.truth (I.compare .lte v w))
  | .gt => some (.truth (I.compare .gt v w))
  | .lt => some (.truth (I.compare .lt v w))
  | _ => none

namespace Machine

/-- The value of an operand. -/
def value (I : Interpretation V) (m : Machine V) : Operand → Option V
  | .var name => m.vars name
  | .const text => some (I.literal text)
  | .temp t => match m.temps t with
    | some (.value v) => some v
    | _ => none
  | .target _ => none

/-- The outcome of a comparison in a temporary. -/
def truth (m : Machine V) (t : Nat) : Option Bool :=
  match m.temps t with
  | some (.truth b) => some b
  | _ => none

/-- Goes on to the next instruction, with another world. -/
def goOn (m : Machine V) (w : World V) : Machine V :=
  { m with toWorld := w, pc := m.pc + 1 }

/-- Goes on to the next instruction, with something in a temporary. -/
def hold (m : Machine V) (t : Nat) (cell : Cell V) : Machine V :=
  { m with temps := Function.update m.temps t (some cell), pc := m.pc + 1 }

/-- What an instruction does, if it makes sense. -/
def exec (I : Interpretation V) (m : Machine V) (q : Quad) : Option (Machine V) :=
  match q.op, q.arg1, q.arg2, q.result with
  | .alloc, some a, none, some (.var name) | .store, some a, none, some (.var name) =>
    (m.value I a).map fun v => m.goOn (m.assign name v)
  | .read, none, none, some (.var name) =>
    match m.input with
    | [] => none
    | v :: rest => some (m.goOn ({ m.toWorld with input := rest }.assign name v))
  | .write, some a, none, none => (m.value I a).map fun v => m.goOn (m.print v)
  | .negate, some a, none, some (.temp t) =>
    (m.value I a).map fun v => m.hold t (.value (I.negate v))
  | .jumpIfFalse, some (.temp t), none, some (.target (.line index)) =>
    (m.truth t).map fun b => { m with pc := if b then m.pc + 1 else index }
  | .jump, none, none, some (.target (.line index)) => some { m with pc := index }
  | .halt, _, _, _ => none
  | op, some a, some b, some (.temp t) =>
    (m.value I a).bind fun v => (m.value I b).bind fun w => (I.apply v w op).map (m.hold t)
  | _, _, _, _ => none

/-! ## 2. Runs -/

/-- One step of a machine. -/
def step (I : Interpretation V) (code : List Quad) (m : Machine V) : Option (Machine V) :=
  code[m.pc]?.bind (m.exec I)

/-- A number of steps. -/
def run (I : Interpretation V) (code : List Quad) : Nat → Machine V → Option (Machine V)
  | 0, m => some m
  | n + 1, m => (m.step I code).bind (run I code n)

/-- The next instruction is `halt`. -/
def Halted (code : List Quad) (m : Machine V) : Prop :=
  ∃ q, code[m.pc]? = some q ∧ q.op = .halt

/-- A machine before its first step: nothing has a value. -/
def start (input : List V) : Machine V where
  vars _ := none
  input := input
  temps _ := none
  pc := 0

/-- **The code, started on some input, ends in a world**: the machine reaches `halt` with it. -/
def Ends (I : Interpretation V) (code : List Quad) (input : List V) (w : World V) : Prop :=
  ∃ n m, run I code n (start input) = some m ∧ m.Halted code ∧ m.toWorld = w

/-- The machine comes to an instruction that makes no sense, or to the end of the code. -/
def GoesWrong (I : Interpretation V) (code : List Quad) (m : Machine V) : Prop :=
  ∃ n m', run I code n m = some m' ∧ m'.step I code = none ∧ ¬ m'.Halted code

variable {I : Interpretation V} {code : List Quad} {m m' h : Machine V} {n k : Nat}

theorem run_add (k n : Nat) (m : Machine V) :
    run I code (k + n) m = (run I code k m).bind (run I code n) := by
  induction k generalizing m with
  | zero => rw [Nat.zero_add]; rfl
  | succ k ih =>
    rw [Nat.succ_add]
    show (m.step I code).bind (run I code (k + n)) = ((m.step I code).bind (run I code k)).bind _
    rw [Option.bind_assoc, funext ih]

theorem run_one (m : Machine V) : run I code 1 m = m.step I code :=
  Option.bind_fun_some _

theorem step_of_halted (hh : h.Halted code) : h.step I code = none := by
  obtain ⟨⟨op, a, b, r⟩, hq, rfl⟩ := hh
  rw [step, hq]
  rfl

theorem run_of_stopped (hstop : m.step I code = none) (hn : run I code n m = some h) :
    n = 0 ∧ h = m := by
  cases n with
  | zero => exact ⟨rfl, (Option.some.inj hn).symm⟩
  | succ n =>
    rw [run, hstop] at hn
    cases hn

/-- A machine that stops passes through every state that it reaches. -/
theorem run_sub (hk : run I code k m = some m') (hn : run I code n m = some h)
    (hstop : h.step I code = none) : k ≤ n ∧ run I code (n - k) m' = some h := by
  rcases Nat.le_total k n with hle | hle
  · refine ⟨hle, ?_⟩
    rw [← Nat.add_sub_of_le hle, run_add, hk] at hn
    exact hn
  · rw [← Nat.add_sub_of_le hle, run_add, hn] at hk
    obtain ⟨hzero, rfl⟩ := run_of_stopped hstop hk
    obtain rfl : k = n := by omega
    exact ⟨Nat.le_refl _, by rw [Nat.sub_self]; rfl⟩

theorem GoesWrong.not_halted (hw : GoesWrong I code m) (hn : run I code n m = some h) :
    ¬ h.Halted code := by
  intro hh
  obtain ⟨k, m', hk, hstop, hwrong⟩ := hw
  obtain ⟨-, hrest⟩ := run_sub hk hn (step_of_halted hh)
  obtain ⟨-, rfl⟩ := run_of_stopped hstop hrest
  exact hwrong hh

theorem GoesWrong.of_run (hk : run I code k m = some m') (hw : GoesWrong I code m') :
    GoesWrong I code m := by
  obtain ⟨n, m'', hn, hstop, hwrong⟩ := hw
  exact ⟨k + n, m'', by rw [run_add, hk]; exact hn, hstop, hwrong⟩

end Machine

/-! ## 3. Parts of code -/

/-- The instructions from the index `base` on begin with `part`. -/
def CodeAt (code : List Quad) (base : Nat) (part : List Quad) : Prop :=
  part <+: code.drop base

section

variable {code a b : List Quad} {base : Nat} {q : Quad}

theorem CodeAt.append (h : CodeAt code base (a ++ b)) :
    CodeAt code base a ∧ CodeAt code (base + a.length) b := by
  obtain ⟨rest, hrest⟩ := h
  refine ⟨⟨b ++ rest, by rw [← hrest, List.append_assoc]⟩, ⟨rest, ?_⟩⟩
  rw [← List.drop_drop, ← hrest, List.append_assoc, List.drop_left]

theorem CodeAt.cons (h : CodeAt code base (q :: a)) :
    code[base]? = some q ∧ CodeAt code (base + 1) a := by
  refine ⟨?_, (CodeAt.append (a := [q]) h).2⟩
  obtain ⟨rest, hrest⟩ := h
  rw [← Nat.add_zero base, ← List.getElem?_drop, ← hrest]
  rfl

theorem CodeAt.step {V : Type u} {I : Interpretation V} {m : Machine V}
    (h : CodeAt code m.pc (q :: a)) : m.step I code = m.exec I q := by
  rw [Machine.step, h.cons.1]
  rfl

/-- An instruction other than `halt` that makes no sense. -/
theorem CodeAt.goesWrong {V : Type u} {I : Interpretation V} {m : Machine V}
    (h : CodeAt code m.pc (q :: a)) (hexec : m.exec I q = none) (hop : q.op ≠ .halt) :
    m.GoesWrong I code := by
  refine ⟨0, m, rfl, h.step.trans hexec, ?_⟩
  rintro ⟨q', hq', hhalt⟩
  rw [h.cons.1] at hq'
  cases hq'
  exact hop hhalt

end

end ThreeAddress
