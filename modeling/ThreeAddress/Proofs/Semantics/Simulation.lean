import ThreeAddress.Proofs.Code.TwoPass
import ThreeAddress.Proofs.Semantics.Machine

/-!
# Code does what its program does

The machine that runs the code of a part of a program goes through the same worlds as the part
itself.

* Expressions and tests are straight-line code: they always come to an end, in one of two ways
  (`advances_expression`, `advances_test`). Temporaries from `next` on are written, the others and
  the world stay as they are, and the value is where `place` says.
* Statements may run forever, so each direction is proved on its own. `Exec.comes` is by induction
  on the execution of a statement. `exists_exec` is by induction on the statement, and for loops on
  the number of steps that are left until the machine halts (`exists_exec_loop`).
-/

namespace ThreeAddress

universe u

variable {V : Type u} {I : Interpretation V} {code rest : List Quad} {m m' m'' : Machine V}
  {n n' next next' : Nat}

/-! ## 1. Expressions and tests -/

/-- The machine has taken `n` steps of straight-line code that writes temporaries from `next` on. -/
structure Advances (I : Interpretation V) (code : List Quad) (n next : Nat) (m m' : Machine V) :
    Prop where
  run : Machine.run I code n m = some m'
  pc : m'.pc = m.pc + n
  world : m'.toWorld = m.toWorld
  temps : ∀ t < next, m'.temps t = m.temps t

theorem Advances.refl (m : Machine V) : Advances I code 0 next m m :=
  ⟨rfl, rfl, rfl, fun _ _ => rfl⟩

theorem Advances.trans (h : Advances I code n next m m') (h' : Advances I code n' next' m' m'')
    (hle : next ≤ next') : Advances I code (n + n') next m m'' where
  run := by
    rw [Machine.run_add, h.run]
    exact h'.run
  pc := by rw [h'.pc, h.pc, Nat.add_assoc]
  world := h'.world.trans h.world
  temps t ht := (h'.temps t (Nat.lt_of_lt_of_le ht hle)).trans (h.temps t ht)

theorem Advances.hold {q : Quad} {t : Nat} {cell : Cell V} (hcode : CodeAt code m.pc (q :: rest))
    (hexec : m.exec I q = some (m.hold t cell)) (ht : next ≤ t) :
    Advances I code 1 next m (m.hold t cell) where
  run := by rw [Machine.run_one, hcode.step, hexec]
  pc := rfl
  world := rfl
  temps t' ht' := Function.update_of_ne (by omega) _ _

/-- An operand is where it was, if what it may depend on has not changed. -/
theorem value_place (e : Expression) (hworld : m'.toWorld = m.toWorld)
    (htemps : ∀ t < next + e.operations, m'.temps t = m.temps t) :
    m'.value I (e.place next) = m.value I (e.place next) := by
  cases e with
  | var name => exact congrFun (congrArg World.vars hworld) name
  | literal type text => rfl
  | negate e =>
    rw [Expression.operations] at htemps
    simp only [Expression.place, Machine.value, htemps (next + e.operations) (by omega)]
  | binary op l r =>
    rw [Expression.operations] at htemps
    simp only [Expression.place, Machine.value,
      htemps (next + l.operations + r.operations) (by omega)]

theorem value_hold (t : Nat) (v : V) : (m.hold t (.value v)).value I (.temp t) = some v := by
  simp [Machine.value, Machine.hold]

theorem exec_arithmetic (op : Arithmetic) (a b : Operand) (t : Nat) :
    m.exec I ⟨op.operator, some a, some b, some (.temp t)⟩ =
      (m.value I a).bind fun v => (m.value I b).bind fun w =>
        some (m.hold t (.value (I.arithmetic op v w))) := by
  cases op <;> rfl

theorem Arithmetic.operator_ne_halt (op : Arithmetic) : op.operator ≠ .halt := by
  cases op <;> decide

theorem exec_comparison (c : Comparison) (a b : Operand) (t : Nat) :
    m.exec I ⟨c.operator, some a, some b, some (.temp t)⟩ =
      (m.value I a).bind fun v => (m.value I b).bind fun w =>
        some (m.hold t (.truth (I.compare c v w))) := by
  cases c <;> rfl

theorem Comparison.operator_ne_halt (c : Comparison) : c.operator ≠ .halt := by
  cases c <;> decide

/-- The machine computes the value of an expression. Where the expression has no value, the machine
goes wrong, or it will as soon as the value is used. -/
def Evaluates (I : Interpretation V) (code : List Quad) (e : Expression) (next : Nat)
    (m : Machine V) : Prop :=
  (∃ m', Advances I code e.operations next m m' ∧
    m'.value I (e.place next) = e.eval I m.vars) ∨
  e.eval I m.vars = none ∧ m.GoesWrong I code

/-- The operands of a binary operation are computed one after the other. -/
theorem advances_operands {l r : Expression}
    (hl : ∀ {next : Nat} {m : Machine V},
      CodeAt code m.pc (l.code next) → Evaluates I code l next m)
    (hr : ∀ {next : Nat} {m : Machine V},
      CodeAt code m.pc (r.code next) → Evaluates I code r next m)
    (h : CodeAt code m.pc (l.code next ++ r.code (next + l.operations))) :
    (∃ m', Advances I code (l.operations + r.operations) next m m' ∧
      m'.value I (l.place next) = l.eval I m.vars ∧
      m'.value I (r.place (next + l.operations)) = r.eval I m.vars) ∨
    (l.eval I m.vars = none ∨ r.eval I m.vars = none) ∧ m.GoesWrong I code := by
  obtain ⟨hleft, hright⟩ := h.append
  rcases hl hleft with ⟨m₁, hm₁, hv⟩ | ⟨hnone, hwrong⟩
  · rw [Expression.length_code, ← hm₁.pc] at hright
    have hvars : m₁.vars = m.vars := congrArg World.vars hm₁.world
    rcases hr hright with ⟨m₂, hm₂, hw⟩ | ⟨hnone, hwrong⟩
    · rw [hvars] at hw
      exact .inl ⟨m₂, hm₁.trans hm₂ (Nat.le_add_right ..),
        (value_place l hm₂.world hm₂.temps).trans hv, hw⟩
    · rw [hvars] at hnone
      exact .inr ⟨.inr hnone, hwrong.of_run hm₁.run⟩
  · exact .inr ⟨.inl hnone, hwrong⟩

/-- A binary operation puts what it computes into a fresh temporary. -/
theorem advances_operation {l r : Expression} {q : Quad} {t : Nat} {f : V → V → Cell V}
    (hl : ∀ {next : Nat} {m : Machine V},
      CodeAt code m.pc (l.code next) → Evaluates I code l next m)
    (hr : ∀ {next : Nat} {m : Machine V},
      CodeAt code m.pc (r.code next) → Evaluates I code r next m)
    (hexec : ∀ m : Machine V, m.exec I q = (m.value I (l.place next)).bind fun v =>
      (m.value I (r.place (next + l.operations))).bind fun w => some (m.hold t (f v w)))
    (hop : q.op ≠ .halt) (ht : next ≤ t)
    (h : CodeAt code m.pc (l.code next ++ r.code (next + l.operations) ++ [q])) :
    (∃ v w, ∃ m' : Machine V, l.eval I m.vars = some v ∧ r.eval I m.vars = some w ∧
      Advances I code (l.operations + r.operations + 1) next m (m'.hold t (f v w))) ∨
    (l.eval I m.vars = none ∨ r.eval I m.vars = none) ∧ m.GoesWrong I code := by
  obtain ⟨hoperands, hq⟩ := h.append
  rcases advances_operands hl hr hoperands with ⟨m₁, hm₁, hv, hw⟩ | hwrong
  · rw [List.length_append, Expression.length_code, Expression.length_code, ← hm₁.pc] at hq
    have hstep := hexec m₁
    rw [hv, hw] at hstep
    cases hleft : l.eval I m.vars with
    | none =>
      rw [hleft] at hstep
      exact .inr ⟨.inl rfl, .of_run hm₁.run (hq.goesWrong hstep hop)⟩
    | some v =>
      cases hright : r.eval I m.vars with
      | none =>
        rw [hleft, hright] at hstep
        exact .inr ⟨.inr rfl, .of_run hm₁.run (hq.goesWrong hstep hop)⟩
      | some w =>
        rw [hleft, hright] at hstep
        exact .inl ⟨v, w, m₁, rfl, rfl, hm₁.trans (.hold hq hstep ht) (Nat.le_refl _)⟩
  · exact .inr hwrong

/-- **The code of an expression computes its value.** -/
theorem advances_expression (e : Expression) (h : CodeAt code m.pc (e.code next)) :
    Evaluates I code e next m := by
  induction e generalizing next m with
  | var name => exact .inl ⟨m, .refl m, rfl⟩
  | literal type text => exact .inl ⟨m, .refl m, rfl⟩
  | negate e ih =>
    obtain ⟨he, hq⟩ := CodeAt.append h
    rcases ih he with ⟨m₁, hm₁, hv⟩ | ⟨hnone, hwrong⟩
    · rw [Expression.length_code, ← hm₁.pc] at hq
      have hstep : m₁.exec I ⟨.negate, some (e.place next), none,
          some (.temp (next + e.operations))⟩ = (m₁.value I (e.place next)).map fun v =>
            m₁.hold (next + e.operations) (.value (I.negate v)) := rfl
      rw [hv] at hstep
      cases heval : e.eval I m.vars with
      | none =>
        rw [heval] at hstep
        exact .inr
          ⟨by simp [Expression.eval, heval], .of_run hm₁.run (hq.goesWrong hstep (by simp))⟩
      | some v =>
        rw [heval] at hstep
        refine .inl ⟨_, hm₁.trans (.hold hq hstep (Nat.le_add_right ..)) (Nat.le_refl _), ?_⟩
        simp [Expression.place, Expression.eval, value_hold, heval]
    · exact .inr ⟨by simp [Expression.eval, hnone], hwrong⟩
  | binary op l r ihl ihr =>
    rcases advances_operation ihl ihr (fun m => exec_arithmetic op ..) op.operator_ne_halt
      (by omega) h with ⟨v, w, m', hv, hw, hm'⟩ | ⟨hnone, hwrong⟩
    · exact .inl ⟨_, hm', by simp [Expression.place, Expression.eval, value_hold, hv, hw]⟩
    · refine .inr ⟨?_, hwrong⟩
      rcases hnone with hnone | hnone <;> simp [Expression.eval, hnone]

/-- **The code of a test computes its outcome.** -/
theorem advances_test (t : Test) (h : CodeAt code m.pc (t.code next)) :
    (∃ m' b, Advances I code t.operations next m m' ∧ t.eval I m.vars = some b ∧
      m'.truth (t.temp next) = some b) ∨
    t.eval I m.vars = none ∧ m.GoesWrong I code := by
  rcases advances_operation (advances_expression t.left) (advances_expression t.right)
    (fun m => exec_comparison t.comparison ..) t.comparison.operator_ne_halt
    (by rw [Test.temp]; omega) h with ⟨v, w, m', hv, hw, hm'⟩ | ⟨hnone, hwrong⟩
  · refine .inl ⟨_, I.compare t.comparison v w, hm', by simp [Test.eval, hv, hw], ?_⟩
    simp [Machine.truth, Machine.hold]
  · refine .inr ⟨?_, hwrong⟩
    rcases hnone with hnone | hnone <;> simp [Test.eval, hnone]

/-! ## 2. Jumps -/

/-- The code of a test and the jump behind it. -/
theorem run_branch (t : Test) {target : Nat}
    (h : CodeAt code m.pc (t.code next ++
      .jump .jumpIfFalse (some (.temp (t.temp next))) (.line target) :: rest)) :
    (∃ m' b, Machine.run I code (t.operations + 1) m = some m' ∧ t.eval I m.vars = some b ∧
      m'.toWorld = m.toWorld ∧ m'.pc = if b then m.pc + t.operations + 1 else target) ∨
    t.eval I m.vars = none ∧ m.GoesWrong I code := by
  obtain ⟨ht, hjump⟩ := h.append
  rcases advances_test t ht with ⟨m₁, b, hm₁, hb, htruth⟩ | hwrong
  · rw [Test.length_code, ← hm₁.pc] at hjump
    refine .inl ⟨{ m₁ with pc := if b then m₁.pc + 1 else target }, b, ?_, hb, hm₁.world, ?_⟩
    · rw [Machine.run_add, hm₁.run, Option.bind_some, Machine.run_one, hjump.step]
      simp [Machine.exec, Quad.jump, htruth]
    · rw [← hm₁.pc]
  · exact .inr hwrong

theorem run_branch_of_eval {t : Test} {target : Nat} {b : Bool} (hb : t.eval I m.vars = some b)
    (h : CodeAt code m.pc (t.code next ++
      .jump .jumpIfFalse (some (.temp (t.temp next))) (.line target) :: rest)) :
    ∃ m', Machine.run I code (t.operations + 1) m = some m' ∧ m'.toWorld = m.toWorld ∧
      m'.pc = if b then m.pc + t.operations + 1 else target := by
  rcases run_branch (I := I) t h with ⟨m', b', hm', hb', hw, hpc⟩ | ⟨hnone, -⟩
  · obtain rfl : b = b' := Option.some.inj (hb.symm.trans hb')
    exact ⟨m', hm', hw, hpc⟩
  · rw [hb] at hnone
    cases hnone

theorem run_jump {target : Nat} (h : CodeAt code m.pc (.jump .jump none (.line target) :: rest)) :
    Machine.run I code 1 m = some { m with pc := target } := by
  rw [Machine.run_one, h.step]
  rfl

/-- Where the parts of a conditional are. -/
theorem CodeAt.ite {base : Nat} {t : Test} {a b : Statement}
    (h : CodeAt code base ((Statement.ite t a b).code base next)) :
    CodeAt code (base + t.operations + 1)
      (a.code (base + t.operations + 1) (next + t.operations)) ∧
    CodeAt code (base + t.operations + 1 + a.size)
      [.jump .jump none (.line (base + t.operations + 1 + a.size + 1 + b.size))] ∧
    CodeAt code (base + t.operations + 1 + a.size + 1)
      (b.code (base + t.operations + 1 + a.size + 1) (next + t.operations + a.operations)) := by
  have hbranches := h.append.2.cons.2
  rw [Test.length_code] at hbranches
  obtain ⟨ha, hb⟩ := hbranches.append
  rw [Statement.length_code] at hb
  exact ⟨ha, (CodeAt.append (a := [_]) hb).1, hb.cons.2⟩

/-- Where the parts of a loop are. -/
theorem CodeAt.loop {base : Nat} {t : Test} {a : Statement}
    (h : CodeAt code base ((Statement.loop t a).code base next)) :
    CodeAt code (base + t.operations + 1)
      (a.code (base + t.operations + 1) (next + t.operations)) ∧
    CodeAt code (base + t.operations + 1 + a.size) [.jump .jump none (.line base)] := by
  have hbody := h.append.2.cons.2
  rw [Test.length_code] at hbody
  obtain ⟨ha, hjump⟩ := hbody.append
  rw [Statement.length_code] at hjump
  exact ⟨ha, hjump⟩

/-! ## 3. From statements to code -/

/-- The machine comes to an instruction in a world. -/
def Comes (I : Interpretation V) (code : List Quad) (m : Machine V) (pc : Nat) (w : World V) :
    Prop :=
  ∃ n m', Machine.run I code n m = some m' ∧ m'.pc = pc ∧ m'.toWorld = w

theorem Comes.of_run {pc : Nat} {w : World V} (hrun : Machine.run I code n m = some m')
    (h : Comes I code m' pc w) : Comes I code m pc w := by
  obtain ⟨k, m'', hk, hpc, hw⟩ := h
  exact ⟨n + k, m'', by rw [Machine.run_add, hrun]; exact hk, hpc, hw⟩

/-- The code of an assignment stores the value, if there is one. -/
theorem comes_assign (name : String) (e : Expression) {base : Nat}
    (h : CodeAt code m.pc ((Statement.assign name e).code base next)) :
    (∃ v, e.eval I m.vars = some v ∧
      Comes I code m (m.pc + (Statement.assign name e).size) (m.assign name v)) ∨
    e.eval I m.vars = none ∧ m.GoesWrong I code := by
  obtain ⟨he, hstore⟩ := CodeAt.append h
  rcases advances_expression (I := I) e he with ⟨m₁, hm₁, hv⟩ | hwrong
  · rw [Expression.length_code, ← hm₁.pc] at hstore
    cases hvalue : e.eval I m.vars with
    | none =>
      rw [hvalue] at hv
      exact .inr ⟨rfl, .of_run hm₁.run (hstore.goesWrong (by simp [Machine.exec, hv]) (by simp))⟩
    | some v =>
      rw [hvalue] at hv
      refine .inl ⟨v, rfl, .of_run hm₁.run ⟨1, m₁.goOn (m₁.assign name v), ?_, ?_, ?_⟩⟩
      · rw [Machine.run_one, hstore.step]
        simp [Machine.exec, hv]
      · show m₁.pc + 1 = _
        rw [hm₁.pc, Statement.size, Nat.add_assoc]
      · show World.assign _ _ _ = _
        rw [hm₁.world]
  · exact .inr hwrong

/-- **The code of a statement does what the statement does.** -/
theorem Exec.comes {s : Statement} {w w' : World V} (h : Exec I s w w') (hm : m.toWorld = w)
    (hcode : CodeAt code m.pc (s.code m.pc next)) : Comes I code m (m.pc + s.size) w' := by
  induction h generalizing m next with
  | skip => exact ⟨0, m, rfl, rfl, hm⟩
  | @read w name v rest next =>
    refine ⟨1, m.goOn ({ w with input := rest }.assign name v), (Machine.run_one m).trans ?_, rfl,
      rfl⟩
    subst hm
    rw [CodeAt.step hcode]
    simp [Machine.exec, next]
  | @write w name v value =>
    refine ⟨1, m.goOn (w.print v), (Machine.run_one m).trans ?_, rfl, rfl⟩
    subst hm
    rw [CodeAt.step hcode]
    simp [Machine.exec, Machine.value, value]
  | @assign w name e v value =>
    subst hm
    rcases comes_assign (I := I) name e hcode with ⟨v', hv', hcomes⟩ | ⟨hnone, -⟩
    · obtain rfl : v = v' := Option.some.inj (value.symm.trans hv')
      exact hcomes
    · rw [value] at hnone
      cases hnone
  | @seq w w₁ w₂ a b first second ih₁ ih₂ =>
    obtain ⟨ha, hb⟩ := CodeAt.append hcode
    obtain ⟨k, m₁, hk, hpc, hw₁⟩ := ih₁ hm ha
    rw [Statement.length_code, ← hpc] at hb
    have hsecond := ih₂ hw₁ hb
    rw [hpc, Nat.add_assoc] at hsecond
    exact .of_run hk hsecond
  | @iteTrue w w' t a b holds branch ih =>
    subst hm
    obtain ⟨ha, hjump, -⟩ := hcode.ite
    obtain ⟨m₁, hm₁, hw₁, hpc₁⟩ := run_branch_of_eval holds hcode
    rw [if_pos rfl] at hpc₁
    rw [← hpc₁] at ha
    obtain ⟨k, m₂, hk, hpc₂, hw₂⟩ := ih hw₁ ha
    rw [← hpc₁, ← hpc₂] at hjump
    refine .of_run hm₁ (.of_run hk ⟨1, _, run_jump hjump, ?_, hw₂⟩)
    simp only [hpc₂, hpc₁, Statement.size]
    omega
  | @iteFalse w w' t a b fails branch ih =>
    subst hm
    obtain ⟨-, -, hb⟩ := hcode.ite
    obtain ⟨m₁, hm₁, hw₁, hpc₁⟩ := run_branch_of_eval fails hcode
    rw [if_neg Bool.false_ne_true] at hpc₁
    rw [← hpc₁] at hb
    have hbranch := ih hw₁ hb
    rw [hpc₁] at hbranch
    refine .of_run hm₁ ?_
    rw [Statement.size]
    simpa only [Nat.add_assoc] using hbranch
  | @loopDone w t a fails =>
    obtain ⟨m₁, hm₁, hw₁, hpc₁⟩ := run_branch_of_eval (by rwa [hm]) hcode
    rw [if_neg Bool.false_ne_true] at hpc₁
    refine ⟨_, m₁, hm₁, ?_, hw₁.trans hm⟩
    rw [hpc₁, Statement.size]
    omega
  | @loopMore w w₁ w₂ t a holds body again ihb iha =>
    subst hm
    obtain ⟨ha, hjump⟩ := hcode.loop
    obtain ⟨m₁, hm₁, hw₁, hpc₁⟩ := run_branch_of_eval holds hcode
    rw [if_pos rfl] at hpc₁
    rw [← hpc₁] at ha
    obtain ⟨k, m₂, hk, hpc₂, hw₂⟩ := ihb hw₁ ha
    rw [← hpc₁, ← hpc₂] at hjump
    -- back at the test, with the world after the body
    exact .of_run hm₁ (.of_run hk (.of_run (run_jump hjump) (iha hw₂ hcode)))

/-! ## 4. From code to statements -/

/-- What is left of the way to `halt` after the code of a statement that does something. -/
theorem Exec.run_rest {s : Statement} {w : World V} {h : Machine V} (hexec : Exec I s m.toWorld w)
    (hcode : CodeAt code m.pc (s.code m.pc next)) (hrun : Machine.run I code n m = some h)
    (hh : h.Halted code) :
    ∃ k m', k ≤ n ∧ Machine.run I code k m' = some h ∧ m'.pc = m.pc + s.size ∧ m'.toWorld = w := by
  obtain ⟨k, m', hk, hpc, hw⟩ := hexec.comes rfl hcode
  obtain ⟨-, hrest⟩ := Machine.run_sub hk hrun (Machine.step_of_halted hh)
  exact ⟨n - k, m', Nat.sub_le .., hrest, hpc, hw⟩

/-- The test and the jump of a conditional or of a loop, on the way to `halt`. -/
theorem branch_of_halted {t : Test} {target : Nat} {h : Machine V}
    (hcode : CodeAt code m.pc (t.code next ++
      .jump .jumpIfFalse (some (.temp (t.temp next))) (.line target) :: rest))
    (hrun : Machine.run I code n m = some h) (hh : h.Halted code) :
    ∃ b k m', k < n ∧ Machine.run I code k m' = some h ∧ t.eval I m.vars = some b ∧
      m'.toWorld = m.toWorld ∧ m'.pc = if b then m.pc + t.operations + 1 else target := by
  rcases run_branch (I := I) t hcode with ⟨m', b, hm', hb, hw, hpc⟩ | ⟨-, hwrong⟩
  · obtain ⟨hle, hrest⟩ := Machine.run_sub hm' hrun (Machine.step_of_halted hh)
    exact ⟨b, _, m', by omega, hrest, hb, hw, hpc⟩
  · exact absurd hh (hwrong.not_halted hrun)

/-- A loop whose body does what its code does. -/
theorem exists_exec_loop {t : Test} {a : Statement} {h : Machine V}
    (ha : ∀ {m : Machine V} {n next : Nat}, CodeAt code m.pc (a.code m.pc next) →
      Machine.run I code n m = some h → ∃ w, Exec I a m.toWorld w)
    (hcode : CodeAt code m.pc ((Statement.loop t a).code m.pc next))
    (hrun : Machine.run I code n m = some h) (hh : h.Halted code) :
    ∃ w, Exec I (.loop t a) m.toWorld w := by
  -- each round of the loop leaves fewer steps
  induction n using Nat.strongRecOn generalizing m with
  | ind n ih =>
    obtain ⟨hbody, hjump⟩ := hcode.loop
    obtain ⟨c, k, m₁, hlt, hk, hc, hw₁, hpc₁⟩ := branch_of_halted hcode hrun hh
    cases c with
    | false => exact ⟨m.toWorld, .loopDone hc⟩
    | true =>
      rw [if_pos rfl] at hpc₁
      rw [← hpc₁] at hbody
      obtain ⟨w₁, hexec₁⟩ := ha hbody hk
      obtain ⟨k', m₂, hle, hk', hpc₂, rfl⟩ := hexec₁.run_rest hbody hk hh
      rw [← hpc₁, ← hpc₂] at hjump
      obtain ⟨-, hrest⟩ := Machine.run_sub (run_jump hjump) hk' (Machine.step_of_halted hh)
      -- back at the test, with the world after the body
      obtain ⟨m₃, hm₃⟩ : ∃ m₃ : Machine V, m₃ = { m₂ with pc := m.pc } := ⟨_, rfl⟩
      have hpc₃ : m₃.pc = m.pc := by rw [hm₃]
      have hw₃ : m₃.toWorld = m₂.toWorld := by rw [hm₃]
      rw [← hm₃] at hrest
      rw [← hpc₃] at hcode
      obtain ⟨w₂, hexec₂⟩ := ih (k' - 1) (by omega) hcode hrest
      rw [hw₁] at hexec₁
      rw [hw₃] at hexec₂
      exact ⟨w₂, .loopMore hc hexec₁ hexec₂⟩

/-- **What the code of a statement does on the way to `halt`, the statement does too.** -/
theorem exists_exec (s : Statement) {h : Machine V}
    (hcode : CodeAt code m.pc (s.code m.pc next)) (hrun : Machine.run I code n m = some h)
    (hh : h.Halted code) : ∃ w, Exec I s m.toWorld w := by
  induction s generalizing m n next with
  | skip => exact ⟨m.toWorld, .skip⟩
  | read name =>
    cases hinput : m.input with
    | nil =>
      have hwrong : m.GoesWrong I code :=
        CodeAt.goesWrong hcode (by simp [Machine.exec, hinput]) (by simp)
      exact absurd hh (hwrong.not_halted hrun)
    | cons v rest => exact ⟨_, .read hinput⟩
  | write name =>
    cases hvalue : m.vars name with
    | none =>
      have hwrong : m.GoesWrong I code :=
        CodeAt.goesWrong hcode (by simp [Machine.exec, Machine.value, hvalue]) (by simp)
      exact absurd hh (hwrong.not_halted hrun)
    | some v => exact ⟨_, .write hvalue⟩
  | assign name e =>
    rcases comes_assign (I := I) name e hcode with ⟨v, hvalue, -⟩ | ⟨-, hwrong⟩
    · exact ⟨_, .assign hvalue⟩
    · exact absurd hh (hwrong.not_halted hrun)
  | seq a b iha ihb =>
    obtain ⟨ha, hb⟩ := CodeAt.append hcode
    obtain ⟨w₁, hexec₁⟩ := iha ha hrun
    obtain ⟨k, m₁, -, hk, hpc₁, rfl⟩ := hexec₁.run_rest ha hrun hh
    rw [Statement.length_code, ← hpc₁] at hb
    obtain ⟨w₂, hexec₂⟩ := ihb hb hk
    exact ⟨w₂, .seq hexec₁ hexec₂⟩
  | ite t a b iha ihb =>
    obtain ⟨ha, -, hb⟩ := hcode.ite
    obtain ⟨c, k, m₁, -, hk, hc, hw₁, hpc₁⟩ := branch_of_halted hcode hrun hh
    cases c with
    | true =>
      rw [if_pos rfl] at hpc₁
      rw [← hpc₁] at ha
      obtain ⟨w, hexec⟩ := iha ha hk
      rw [hw₁] at hexec
      exact ⟨w, .iteTrue hc hexec⟩
    | false =>
      rw [if_neg Bool.false_ne_true] at hpc₁
      rw [← hpc₁] at hb
      obtain ⟨w, hexec⟩ := ihb hb hk
      rw [hw₁] at hexec
      exact ⟨w, .iteFalse hc hexec⟩
  | loop t a iha =>
    exact exists_exec_loop (fun ha hrun => iha ha hrun) hcode hrun hh

/-! ## 5. Programs -/

/-- Gives a variable the zero of its type. -/
def World.setUp (I : Interpretation V) (w : World V) (s : Symbol) : World V :=
  w.assign s.name (I.literal s.type.zero)

theorem run_allocs (symbols : List Symbol) (h : CodeAt code m.pc (symbols.map Symbol.alloc)) :
    ∃ m', Machine.run I code symbols.length m = some m' ∧ m'.pc = m.pc + symbols.length ∧
      m'.toWorld = symbols.foldl (World.setUp I) m.toWorld := by
  induction symbols generalizing m with
  | nil => exact ⟨m, rfl, rfl, rfl⟩
  | cons s symbols ih =>
    obtain ⟨m', hm', hpc, hw⟩ := ih (m := m.goOn (m.setUp I s)) h.cons.2
    refine ⟨m', ?_, ?_, hw⟩
    · rw [List.length_cons, Machine.run, h.step]
      exact hm'
    · rw [hpc, List.length_cons]
      show m.pc + 1 + _ = _
      omega

/-- Setting up variables one after the other leaves each with the zero of its type, if no name
occurs twice. -/
theorem foldl_setUp {symbols : List Symbol} (hnodup : (symbols.map Symbol.name).Nodup)
    (w : World V) :
    symbols.foldl (World.setUp I) w =
      { w with vars := fun name => ((World.initial I symbols []).vars name).or (w.vars name) } := by
  induction symbols generalizing w with
  | nil => rfl
  | cons s symbols ih =>
    rw [List.map_cons, List.nodup_cons] at hnodup
    rw [List.foldl_cons, ih hnodup.2]
    simp only [World.setUp, World.assign, World.initial, World.mk.injEq, and_true]
    funext name
    by_cases hname : s.name = name
    · subst hname
      have hnone : symbols.find? (·.name = s.name) = none := by
        refine List.find?_eq_none.mpr fun s' hs' heq => hnodup.1 ?_
        exact of_decide_eq_true heq ▸ List.mem_map_of_mem hs'
      simp [hnone]
    · simp [hname, Function.update_of_ne (Ne.symm hname)]

theorem world_allocs {symbols : List Symbol} (hnodup : (symbols.map Symbol.name).Nodup)
    (input : List V) :
    symbols.foldl (World.setUp I) (Machine.start input).toWorld =
      World.initial I symbols input := by
  rw [foldl_setUp hnodup]
  simp [Machine.start, World.initial]

/-- **The code of a program ends as the program does.** -/
theorem SourceProgram.ends_iff {p : SourceProgram} (hnodup : (p.symbols.map Symbol.name).Nodup)
    {input : List V} {w : World V} : p.Ends I input w ↔ Machine.Ends I p.code input w := by
  have hcode : CodeAt p.code (Machine.start input).pc (p.symbols.map Symbol.alloc ++
      p.body.code p.symbols.length 1 ++ [{ op := .halt }]) := ⟨[], List.append_nil _⟩
  obtain ⟨hallocs, hbody⟩ := (hcode.append).1.append
  obtain ⟨m₁, hm₁, hpc₁, hw₁⟩ := run_allocs (I := I) p.symbols hallocs
  rw [world_allocs hnodup] at hw₁
  have hstart : m₁.pc = p.symbols.length := hpc₁.trans (Nat.zero_add _)
  rw [List.length_map, ← hpc₁] at hbody
  rw [← hstart] at hbody
  -- whoever comes to the end of the body has halted
  have hend : ∀ m : Machine V, m.pc = m₁.pc + p.body.size → m.Halted p.code := by
    intro m hm
    have hhalt := hcode.append.2.cons.1
    rw [List.length_append, List.length_map, Statement.length_code, ← Nat.add_assoc, ← hpc₁,
      ← hm] at hhalt
    exact ⟨_, hhalt, rfl⟩
  constructor
  · intro hends
    obtain ⟨k, m₂, hk, hpc₂, hw₂⟩ := Exec.comes hends hw₁ hbody
    exact ⟨_, m₂, by rw [Machine.run_add, hm₁]; exact hk, hend m₂ hpc₂, hw₂⟩
  · rintro ⟨n, h, hrun, hh, rfl⟩
    obtain ⟨-, hrest⟩ := Machine.run_sub hm₁ hrun (Machine.step_of_halted hh)
    obtain ⟨w, hexec⟩ := exists_exec p.body hbody hrest hh
    obtain ⟨k, m₂, -, hk, hpc₂, rfl⟩ := hexec.run_rest hbody hrest hh
    obtain ⟨-, rfl⟩ := Machine.run_of_stopped (Machine.step_of_halted (hend m₂ hpc₂)) hk
    rw [hw₁] at hexec
    exact hexec

end ThreeAddress
