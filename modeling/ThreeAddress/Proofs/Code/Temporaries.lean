import ThreeAddress.Proofs.Code.Instructions
import ThreeAddress.Proofs.Compilation

/-!
# The life of a temporary

A temporary is computed once, used once, and forgotten. The code that runs in between is arithmetic,
and no jump leads into it, so whoever runs the program never comes to the use of a temporary without
having just computed it.

* The operations of a program compute the temporaries `1, 2, …` in this order (`results_code`).
* Every one of them is an argument exactly once. In the code of an expression the temporary that
  holds the value is still to be used; all others have been (`usedTemps_code`).
* An operation and the use of its result are in the code of one expression, test or assignment
  (`Lives`). A jump goes to where some statement begins or ends, and never between them
  (`Statement.enters_code`).
-/

namespace ThreeAddress

variable {code part : List Quad} {entered : Nat → Prop} {base next i k u t : Nat} {q : Quad}

/-! ## 1. Where code is, and where jumps lead -/

theorem CodeAt.getElem?_add (h : CodeAt code base part) (hk : k < part.length) :
    code[base + k]? = part[k]? := by
  obtain ⟨rest, hrest⟩ := h
  rw [← List.getElem?_drop, ← hrest, List.getElem?_append_left hk]

theorem CodeAt.mem (h : CodeAt code base part) (hle : base ≤ i) (hlt : i < base + part.length)
    (hq : code[i]? = some q) : q ∈ part := by
  obtain ⟨k, rfl⟩ := Nat.exists_eq_add_of_le hle
  rw [h.getElem?_add (by omega)] at hq
  exact List.mem_of_getElem? hq

/-- Some jump of the code goes to the instruction `i`. -/
def Enters (code : List Quad) (i : Nat) : Prop :=
  ∃ q ∈ code, q.target? = some i

@[simp] theorem enters_nil : ¬ Enters [] i := by
  simp [Enters]

@[simp] theorem enters_append {a b : List Quad} : Enters (a ++ b) i ↔ Enters a i ∨ Enters b i := by
  simp [Enters, or_and_right, exists_or]

@[simp] theorem enters_cons {a : List Quad} :
    Enters (q :: a) i ↔ q.target? = some i ∨ Enters a i := by
  simp [Enters, or_and_right, exists_or]

theorem target?_of_computes (h : q.op.computes = true) : q.target? = none := by
  obtain ⟨op, arg1, arg2, result⟩ := q
  cases op <;> simp [Operator.computes, Operator.isArithmetic, Operator.isComparison] at h <;> rfl

theorem Expression.not_enters_code (e : Expression) (next : Nat) : ¬ Enters (e.code next) i := by
  rintro ⟨q, hq, ht⟩
  rw [target?_of_computes (by simp [Operator.computes, isArithmetic_of_mem hq])] at ht
  cases ht

theorem Test.not_enters_code (t : Test) (next : Nat) : ¬ Enters (t.code next) i := by
  simp [code, Expression.not_enters_code, target?_of_computes]

theorem enters_assign {name : String} {e : Expression} :
    ¬ Enters ((Statement.assign name e).code base next) i := by
  simp [Statement.code, Expression.not_enters_code, Quad.target?, Operator.isJump]

/-- Where the jumps in the code of a conditional lead. -/
theorem enters_ite {t : Test} {a b : Statement} :
    Enters ((Statement.ite t a b).code base next) i ↔
      i = base + t.operations + 1 + a.size + 1 ∨
      Enters (a.code (base + t.operations + 1) (next + t.operations)) i ∨
      i = base + t.operations + 1 + a.size + 1 + b.size ∨
      Enters (b.code (base + t.operations + 1 + a.size + 1)
        (next + t.operations + a.operations)) i := by
  simp [Statement.code, Test.not_enters_code, Quad.jump, Quad.target?, Operator.isJump, eq_comm]

/-- Where the jumps in the code of a loop lead. -/
theorem enters_loop {t : Test} {a : Statement} :
    Enters ((Statement.loop t a).code base next) i ↔
      i = base + t.operations + 1 + a.size + 1 ∨
      Enters (a.code (base + t.operations + 1) (next + t.operations)) i ∨ i = base := by
  simp [Statement.code, Test.not_enters_code, Quad.jump, Quad.target?, Operator.isJump, eq_comm]

/-- **The jumps of a statement stay in its code**, or go to the instruction right after it. -/
theorem Statement.enters_code {s : Statement} (h : Enters (s.code base next) i) :
    base ≤ i ∧ i ≤ base + s.size := by
  induction s generalizing base next with
  | skip => simp [code] at h
  | read | write => simp [code, Quad.target?, Operator.isJump] at h
  | assign name e => exact absurd h enters_assign
  | seq a b iha ihb =>
    simp only [code, enters_append] at h
    simp only [size]
    rcases h with h | h
    · have := iha h
      omega
    · have := ihb h
      omega
  | ite t a b iha ihb =>
    simp only [size]
    rcases enters_ite.mp h with rfl | h | rfl | h
    · omega
    · have := iha h
      omega
    · omega
    · have := ihb h
      omega
  | loop t a iha =>
    simp only [size]
    rcases enters_loop.mp h with rfl | h | rfl
    · omega
    · have := iha h
      omega
    · omega

/-- Jumps from elsewhere lead to where the code of the statement begins or ends, but not between. -/
def Confined (entered : Nat → Prop) (s : Statement) (base next : Nat) : Prop :=
  ∀ i, entered i → base < i → i < base + s.size → Enters (s.code base next) i

theorem Confined.assign {name : String} {e : Expression}
    (h : Confined entered (.assign name e) base next) (hi : entered i) :
    i ≤ base ∨ base + e.operations < i := by
  by_contra hcon
  refine enters_assign (h i hi (by omega) ?_)
  simp only [Statement.size]
  omega

theorem Confined.seq {a b : Statement} (h : Confined entered (.seq a b) base next) :
    Confined entered a base next ∧
      Confined entered b (base + a.size) (next + a.operations) := by
  simp only [Confined, Statement.size, Statement.code, enters_append] at h
  constructor
  · intro i hi hlo hhi
    rcases h i hi hlo (by omega) with hin | hin
    · exact hin
    · have := Statement.enters_code hin
      omega
  · intro i hi hlo hhi
    rcases h i hi (by omega) (by omega) with hin | hin
    · have := Statement.enters_code hin
      omega
    · exact hin

theorem Confined.ite {t : Test} {a b : Statement} (h : Confined entered (.ite t a b) base next) :
    (∀ i, entered i → i ≤ base ∨ base + t.operations < i) ∧
      Confined entered a (base + t.operations + 1) (next + t.operations) ∧
      Confined entered b (base + t.operations + 1 + a.size + 1)
        (next + t.operations + a.operations) := by
  simp only [Confined, Statement.size, enters_ite] at h
  -- a jump that leads inside is the one over the first branch, or stays in one of the branches
  have hinside : ∀ i, entered i → base < i →
      i < base + (t.operations + 1 + a.size + 1 + b.size) →
      i = base + t.operations + 1 + a.size + 1 ∨
      (Enters (a.code (base + t.operations + 1) (next + t.operations)) i ∧
        base + t.operations + 1 ≤ i ∧ i ≤ base + t.operations + 1 + a.size) ∨
      (Enters (b.code (base + t.operations + 1 + a.size + 1)
        (next + t.operations + a.operations)) i ∧ base + t.operations + 1 + a.size + 1 ≤ i) := by
    intro i hi hlo hhi
    rcases h i hi hlo hhi with heq | hin | heq | hin
    · exact .inl heq
    · exact .inr (.inl ⟨hin, Statement.enters_code hin⟩)
    · omega
    · exact .inr (.inr ⟨hin, (Statement.enters_code hin).1⟩)
  refine ⟨fun i hi => ?_, fun i hi hlo hhi => ?_, fun i hi hlo hhi => ?_⟩
  · by_contra hcon
    rcases hinside i hi (by omega) (by omega) with heq | ⟨-, hin⟩ | ⟨-, hin⟩ <;> omega
  · rcases hinside i hi (by omega) (by omega) with heq | ⟨hin, -⟩ | ⟨-, hin⟩
    · omega
    · exact hin
    · omega
  · rcases hinside i hi (by omega) (by omega) with heq | ⟨-, hin⟩ | ⟨hin, -⟩
    · omega
    · omega
    · exact hin

theorem Confined.loop {t : Test} {a : Statement} (h : Confined entered (.loop t a) base next) :
    (∀ i, entered i → i ≤ base ∨ base + t.operations < i) ∧
      Confined entered a (base + t.operations + 1) (next + t.operations) := by
  simp only [Confined, Statement.size, enters_loop] at h
  -- a jump that leads inside stays in the body
  have hinside : ∀ i, entered i → base < i → i < base + (t.operations + 1 + a.size + 1) →
      Enters (a.code (base + t.operations + 1) (next + t.operations)) i := by
    intro i hi hlo hhi
    rcases h i hi hlo hhi with heq | hin | heq
    · omega
    · exact hin
    · omega
  refine ⟨fun i hi => ?_, fun i hi hlo hhi => hinside i hi (by omega) (by omega)⟩
  by_contra hcon
  have := Statement.enters_code (hinside i hi (by omega) (by omega))
  omega

/-! ## 2. From the operation to the use -/

/-- The temporary `t` is computed at `d` and used at `u`. In between there is only arithmetic, and
`entered` has nothing after `d` up to `u`. -/
structure Lives (code : List Quad) (entered : Nat → Prop) (t d u : Nat) : Prop where
  computed : ∃ q, code[d]? = some q ∧ q.result = some (.temp t)
  used : ∃ q, code[u]? = some q ∧ .temp t ∈ q.arguments
  before : d < u
  straight : ∀ i q, d < i → i < u → code[i]? = some q → q.op.isArithmetic = true
  closed : ∀ i, entered i → i ≤ d ∨ u < i

/-- An operand that is there at `stop` is used at `u`. Up to then there is only arithmetic, and
`entered` has nothing after `start` up to `u`. -/
structure UsedAt (code : List Quad) (entered : Nat → Prop) (start stop u : Nat) (a : Operand) :
    Prop where
  le : stop ≤ u
  used : ∃ q, code[u]? = some q ∧ a ∈ q.arguments
  straight : ∀ i q, stop ≤ i → i < u → code[i]? = some q → q.op.isArithmetic = true
  closed : ∀ i, entered i → i ≤ start ∨ u < i

/-- An operand that is used at once. -/
theorem UsedAt.of_getElem? {a : Operand} (hq : code[u]? = some q) (ha : a ∈ q.arguments)
    (hclosed : ∀ i, entered i → i ≤ base ∨ u < i) : UsedAt code entered base u u a where
  le := Nat.le_refl u
  used := ⟨q, hq, ha⟩
  straight _ _ hle hlt := absurd hlt (Nat.not_lt.mpr hle)
  closed := hclosed

/-- The operation that computes what is used. -/
theorem UsedAt.lives {d : Nat} (h : UsedAt code entered base (d + 1) u (.temp t)) (hd : base ≤ d)
    (hq : code[d]? = some q) (ht : q.result = some (.temp t)) : Lives code entered t d u where
  computed := ⟨q, hq, ht⟩
  used := h.used
  before := h.le
  straight i q' hlt := h.straight i q' hlt
  closed i hi := (h.closed i hi).imp_left (Nat.le_trans · hd)

/-- The temporaries of two operands, which are computed one after the other and then used
together. -/
theorem lives_operands {l r : Expression}
    (hl : ∀ {base next u : Nat}, CodeAt code base (l.code next) →
      UsedAt code entered base (base + l.operations) u (l.place next) →
      ∀ t, next ≤ t → t < next + l.operations → ∃ d u, Lives code entered t d u)
    (hr : ∀ {base next u : Nat}, CodeAt code base (r.code next) →
      UsedAt code entered base (base + r.operations) u (r.place next) →
      ∀ t, next ≤ t → t < next + r.operations → ∃ d u, Lives code entered t d u)
    (h : CodeAt code base (l.code next ++ r.code (next + l.operations)))
    (hq : code[base + (l.operations + r.operations)]? = some q)
    (hargs : q.arguments = [l.place next, r.place (next + l.operations)])
    (hclosed : ∀ i, entered i → i ≤ base ∨ base + (l.operations + r.operations) < i)
    (hlo : next ≤ t) (hhi : t < next + (l.operations + r.operations)) :
    ∃ d u, Lives code entered t d u := by
  obtain ⟨hleft, hright⟩ := h.append
  rw [Expression.length_code] at hright
  by_cases ht : t < next + l.operations
  · refine hl hleft ⟨by omega, ⟨q, hq, by simp [hargs]⟩, ?_, hclosed⟩ t hlo ht
    -- the code of the other operand stands between the first operand and its use
    intro i q' hle hlt hq'
    exact Expression.isArithmetic_of_mem (hright.mem hle (by simpa [Nat.add_assoc] using hlt) hq')
  · rw [← Nat.add_assoc] at hq hhi
    refine hr hright (.of_getElem? hq (by simp [hargs]) ?_) t (Nat.le_of_not_lt ht) hhi
    intro i hi
    exact (hclosed i hi).imp (by omega) (by omega)

/-- **The temporaries of an expression**, given where its value is used. -/
theorem lives_expression (e : Expression) (h : CodeAt code base (e.code next))
    (hused : UsedAt code entered base (base + e.operations) u (e.place next)) :
    ∀ t, next ≤ t → t < next + e.operations → ∃ d u, Lives code entered t d u := by
  induction e generalizing base next u with
  | var | literal =>
    intro t hlo hhi
    exact absurd hhi (Nat.not_lt.mpr hlo)
  | negate e ih =>
    intro t hlo hhi
    obtain ⟨he, hq⟩ := CodeAt.append h
    rw [Expression.length_code] at hq
    have hle : base + e.operations + 1 ≤ u := hused.le
    rcases Nat.lt_succ_iff_lt_or_eq.mp hhi with hhi | rfl
    · refine ih he (.of_getElem? hq.cons.1 (by simp [Quad.arguments]) ?_) t hlo hhi
      intro i hi
      exact (hused.closed i hi).imp_right (by omega)
    · exact ⟨_, u, hused.lives (Nat.le_add_right ..) hq.cons.1 rfl⟩
  | binary op l r ihl ihr =>
    intro t hlo hhi
    obtain ⟨hoperands, hq⟩ := CodeAt.append h
    rw [List.length_append, Expression.length_code, Expression.length_code] at hq
    have hle : base + (l.operations + r.operations) + 1 ≤ u := hused.le
    rw [Expression.operations, ← Nat.add_assoc] at hhi
    rcases Nat.lt_succ_iff_lt_or_eq.mp hhi with hhi | rfl
    · refine lives_operands ihl ihr hoperands hq.cons.1 (by simp [Quad.arguments]) ?_ hlo hhi
      intro i hi
      exact (hused.closed i hi).imp_right (by omega)
    · rw [← Nat.add_assoc next]
      exact ⟨_, u, hused.lives (Nat.le_add_right ..) hq.cons.1 rfl⟩

/-- **The temporaries of a test**, whose outcome is used by the jump behind it. -/
theorem lives_test (test : Test) {jump : Quad} {rest : List Quad}
    (h : CodeAt code base (test.code next ++ jump :: rest))
    (hjump : .temp (test.temp next) ∈ jump.arguments)
    (hclosed : ∀ i, entered i → i ≤ base ∨ base + test.operations < i) (hlo : next ≤ t)
    (hhi : t < next + test.operations) : ∃ d u, Lives code entered t d u := by
  obtain ⟨htest, hrest⟩ := h.append
  obtain ⟨hoperands, hq⟩ := CodeAt.append htest
  rw [Test.length_code] at hrest
  rw [List.length_append, Expression.length_code, Expression.length_code] at hq
  rw [Test.operations, ← Nat.add_assoc] at hhi
  rcases Nat.lt_succ_iff_lt_or_eq.mp hhi with hhi | rfl
  · refine lives_operands (lives_expression test.left) (lives_expression test.right) hoperands
      hq.cons.1 (by simp [Quad.arguments]) ?_ hlo hhi
    intro i hi
    exact (hclosed i hi).imp_right Nat.lt_of_succ_lt
  · have hused := UsedAt.of_getElem? hrest.cons.1 hjump hclosed
    rw [← Nat.add_assoc next]
    exact ⟨_, _, hused.lives (Nat.le_add_right ..) hq.cons.1 rfl⟩

/-- **The temporaries of a statement.** -/
theorem lives_statement (s : Statement) (h : CodeAt code base (s.code base next))
    (hconfined : Confined entered s base next) :
    ∀ t, next ≤ t → t < next + s.operations → ∃ d u, Lives code entered t d u := by
  induction s generalizing base next with
  | skip | read | write =>
    intro t hlo hhi
    exact absurd hhi (Nat.not_lt.mpr hlo)
  | assign name e =>
    obtain ⟨he, hq⟩ := CodeAt.append h
    rw [Expression.length_code] at hq
    exact lives_expression e he
      (.of_getElem? hq.cons.1 (by simp [Quad.arguments]) fun i hi => hconfined.assign hi)
  | seq a b iha ihb =>
    intro t hlo hhi
    obtain ⟨ha, hb⟩ := CodeAt.append h
    rw [Statement.length_code] at hb
    rw [Statement.operations, ← Nat.add_assoc] at hhi
    by_cases hta : t < next + a.operations
    · exact iha ha hconfined.seq.1 t hlo hta
    · exact ihb hb hconfined.seq.2 t (Nat.le_of_not_lt hta) hhi
  | ite test a b iha ihb =>
    intro t hlo hhi
    obtain ⟨ha, -, hb⟩ := CodeAt.ite h
    obtain ⟨htest, hina, hinb⟩ := hconfined.ite
    rw [Statement.operations, ← Nat.add_assoc, ← Nat.add_assoc] at hhi
    by_cases htt : t < next + test.operations
    · exact lives_test test h (by simp [Quad.arguments, Quad.jump]) htest hlo htt
    by_cases hta : t < next + test.operations + a.operations
    · exact iha ha hina t (Nat.le_of_not_lt htt) hta
    · exact ihb hb hinb t (Nat.le_of_not_lt hta) hhi
  | loop test a iha =>
    intro t hlo hhi
    obtain ⟨ha, -⟩ := CodeAt.loop h
    obtain ⟨htest, hina⟩ := hconfined.loop
    rw [Statement.operations, ← Nat.add_assoc] at hhi
    by_cases htt : t < next + test.operations
    · exact lives_test test h (by simp [Quad.arguments, Quad.jump]) htest hlo htt
    · exact iha ha hina t (Nat.le_of_not_lt htt) hhi

/-! ## 3. What is used, and what is computed -/

/-- The temporary that an operand is, if it is one. -/
def Operand.temps : Operand → List Nat
  | temp t => [t]
  | _ => []

/-- The temporaries among the arguments of some code, as often as they occur. -/
def usedTemps (code : List Quad) : List Nat :=
  (code.flatMap Quad.arguments).flatMap Operand.temps

@[simp] theorem usedTemps_nil : usedTemps [] = [] :=
  rfl

@[simp] theorem usedTemps_append (a b : List Quad) :
    usedTemps (a ++ b) = usedTemps a ++ usedTemps b := by
  simp [usedTemps]

@[simp] theorem usedTemps_cons (q : Quad) (a : List Quad) :
    usedTemps (q :: a) = q.arguments.flatMap Operand.temps ++ usedTemps a := by
  simp [usedTemps]

theorem count_usedTemps (code : List Quad) (t : Nat) :
    (usedTemps code).count t = (code.flatMap Quad.arguments).count (.temp t) := by
  rw [usedTemps]
  induction code.flatMap Quad.arguments with
  | nil => rfl
  | cons a as ih =>
    rw [List.flatMap_cons, List.count_append, List.count_cons, ih, Nat.add_comm]
    cases a <;> simp [Operand.temps, List.count_singleton]

/-- Two operands and the operation on them use the temporaries of both operands. -/
theorem usedTemps_operands {l r : Expression}
    (hl : ∀ next, (usedTemps (l.code next) ++ (l.place next).temps).Perm
      (List.range' next l.operations))
    (hr : ∀ next, (usedTemps (r.code next) ++ (r.place next).temps).Perm
      (List.range' next r.operations))
    (hargs : q.arguments = [l.place next, r.place (next + l.operations)]) :
    (usedTemps (l.code next ++ r.code (next + l.operations) ++ [q])).Perm
      (List.range' next (l.operations + r.operations)) := by
  rw [← List.range'_append_1]
  refine .trans ?_ ((hl next).append (hr (next + l.operations)))
  simp only [usedTemps_append, usedTemps_cons, usedTemps_nil, hargs, List.flatMap_cons,
    List.flatMap_nil, List.append_nil, List.append_assoc, List.perm_append_left_iff]
  exact List.perm_append_comm_assoc ..

/-- **Of the temporaries of an expression, only the one that holds its value is not used in its
code.** -/
theorem Expression.usedTemps_code (e : Expression) (next : Nat) :
    (usedTemps (e.code next) ++ (e.place next).temps).Perm (List.range' next e.operations) := by
  induction e generalizing next with
  | var | literal => exact .refl _
  | negate e ih =>
    rw [operations, List.range'_1_concat]
    refine .append ?_ (.refl _)
    simpa [code, Quad.arguments] using ih next
  | binary op l r ihl ihr =>
    rw [operations, List.range'_1_concat, ← Nat.add_assoc]
    exact (usedTemps_operands ihl ihr rfl).append_right _

theorem Test.usedTemps_code (t : Test) (next : Nat) :
    (usedTemps (t.code next) ++ [t.temp next]).Perm (List.range' next t.operations) := by
  rw [operations, List.range'_1_concat, ← Nat.add_assoc]
  exact (usedTemps_operands t.left.usedTemps_code t.right.usedTemps_code rfl).append_right _

/-- **Every temporary of a statement is used once.** -/
theorem Statement.usedTemps_code (s : Statement) (base next : Nat) :
    (usedTemps (s.code base next)).Perm (List.range' next s.operations) := by
  induction s generalizing base next with
  | skip | read | write => exact .refl _
  | assign name e =>
    have he := e.usedTemps_code next
    simpa [code, operations, Quad.arguments] using he
  | seq a b iha ihb =>
    rw [code, operations, usedTemps_append, ← List.range'_append_1]
    exact (iha ..).append (ihb ..)
  | ite t a b iha ihb =>
    have ht := t.usedTemps_code next
    have hbranches := (iha (base + t.operations + 1) (next + t.operations)).append
      (ihb (base + t.operations + 1 + a.size + 1) (next + t.operations + a.operations))
    rw [operations, Nat.add_assoc, ← List.range'_append_1, ← List.range'_append_1]
    simpa [code, Quad.arguments, Quad.jump, Operand.temps] using ht.append hbranches
  | loop t a iha =>
    have ht := t.usedTemps_code next
    have hbody := iha (base + t.operations + 1) (next + t.operations)
    rw [operations, ← List.range'_append_1]
    simpa [code, Quad.arguments, Quad.jump, Operand.temps] using ht.append hbody

/-- The results of the operations in some code. -/
def results (code : List Quad) : List (Option Operand) :=
  (code.filter (·.op.computes)).map Quad.result

@[simp] theorem results_nil : results [] = [] :=
  rfl

@[simp] theorem results_append (a b : List Quad) : results (a ++ b) = results a ++ results b := by
  simp [results]

theorem results_cons_of_computes (h : q.op.computes = true) (a : List Quad) :
    results (q :: a) = q.result :: results a := by
  simp [results, h]

theorem results_cons_of_not_computes (h : q.op.computes = false) (a : List Quad) :
    results (q :: a) = results a := by
  simp [results, h]

/-- Temporaries, numbered from `next` on. -/
def freshTemps (next count : Nat) : List (Option Operand) :=
  (List.range' next count).map fun t => some (.temp t)

theorem freshTemps_append (next m n : Nat) :
    freshTemps next m ++ freshTemps (next + m) n = freshTemps next (m + n) := by
  simp [freshTemps, ← List.range'_append_1]

theorem freshTemps_concat (next n : Nat) :
    freshTemps next n ++ [some (.temp (next + n))] = freshTemps next (n + 1) := by
  simp [freshTemps, List.range'_1_concat]

theorem Expression.results_code (e : Expression) (next : Nat) :
    results (e.code next) = freshTemps next e.operations := by
  induction e generalizing next with
  | var | literal => rfl
  | negate e ih =>
    rw [code, results_append, results_cons_of_computes rfl, ih, operations, ← freshTemps_concat]
    rfl
  | binary op l r ihl ihr =>
    rw [code, results_append, results_append, results_cons_of_computes op.computes_operator, ihl,
      ihr, operations, freshTemps_append, ← freshTemps_concat, ← Nat.add_assoc]
    rfl

theorem Test.results_code (t : Test) (next : Nat) :
    results (t.code next) = freshTemps next t.operations := by
  rw [code, results_append, results_append, results_cons_of_computes t.comparison.computes_operator,
    Expression.results_code, Expression.results_code, operations, freshTemps_append,
    ← freshTemps_concat, temp, Nat.add_assoc]
  rfl

/-- **The operations of a statement compute its temporaries in order.** -/
theorem Statement.results_code (s : Statement) (base next : Nat) :
    results (s.code base next) = freshTemps next s.operations := by
  induction s generalizing base next with
  | skip | read | write => rfl
  | assign name e =>
    rw [code, results_append, Expression.results_code, results_cons_of_not_computes rfl]
    exact List.append_nil _
  | seq a b iha ihb => rw [code, results_append, iha, ihb, operations, freshTemps_append]
  | ite t a b iha ihb =>
    simp only [code]
    rw [results_append, results_cons_of_not_computes rfl, results_append,
      results_cons_of_not_computes rfl, Test.results_code, iha, ihb, operations, freshTemps_append,
      freshTemps_append, Nat.add_assoc]
  | loop t a iha =>
    simp only [code]
    rw [results_append, results_cons_of_not_computes rfl, results_append,
      results_cons_of_not_computes rfl, Test.results_code, iha, operations, results_nil,
      List.append_nil, freshTemps_append]

/-! ## 4. Programs -/

namespace SourceProgram

variable {p : SourceProgram}

theorem usedTemps_code (p : SourceProgram) :
    (usedTemps p.code).Perm (List.range' 1 p.body.operations) := by
  have hallocs : usedTemps (p.symbols.map Symbol.alloc) = [] := by
    induction p.symbols with
    | nil => rfl
    | cons v vs ih => simpa [Symbol.alloc, Quad.arguments, Operand.temps] using ih
  have hbody := p.body.usedTemps_code p.symbols.length 1
  simpa [code, hallocs, Quad.arguments] using hbody

theorem results_code (p : SourceProgram) : results p.code = freshTemps 1 p.body.operations := by
  have hallocs : results (p.symbols.map Symbol.alloc) = [] := by
    induction p.symbols with
    | nil => rfl
    | cons v vs ih => rw [List.map_cons, results_cons_of_not_computes rfl, ih]
  rw [code, results_append, results_append, hallocs, Statement.results_code,
    results_cons_of_not_computes rfl]
  exact List.append_nil _

/-- A temporary that is used is computed. -/
theorem exists_result_of_used (hq : q ∈ p.code) (ht : .temp t ∈ q.arguments) :
    ∃ q' ∈ p.code, q'.result = some (.temp t) := by
  have hused : t ∈ usedTemps p.code := by
    rw [usedTemps, List.mem_flatMap]
    exact ⟨.temp t, List.mem_flatMap.mpr ⟨q, hq, ht⟩, List.mem_singleton.mpr rfl⟩
  have hresult : some (.temp t) ∈ results p.code := by
    rw [p.results_code]
    exact List.mem_map_of_mem (p.usedTemps_code.mem_iff.mp hused)
  obtain ⟨q', hq', hr⟩ := List.mem_map.mp hresult
  exact ⟨q', List.mem_of_mem_filter hq', hr⟩

/-- The jumps of a program are those of its body. -/
theorem enters_body (h : Enters p.code i) : Enters (p.body.code p.symbols.length 1) i := by
  obtain ⟨q, hq, ht⟩ := h
  simp only [code, List.mem_append, List.mem_map, List.mem_singleton] at hq
  rcases hq with (⟨v, -, rfl⟩ | hq) | rfl
  · cases ht
  · exact ⟨q, hq, ht⟩
  · cases ht

theorem codeAt_body (p : SourceProgram) :
    CodeAt p.code p.symbols.length (p.body.code p.symbols.length 1) := by
  refine ⟨[{ op := .halt }], ?_⟩
  rw [code, List.append_assoc, List.drop_left' (List.length_map _)]

/-- **The temporaries of a program.** Each one is used once, shortly after it is computed. -/
theorem lives_code (hlo : 1 ≤ t) (hhi : t ≤ p.body.operations) :
    (p.code.flatMap Quad.arguments).count (.temp t) = 1 ∧
      ∃ d u, Lives p.code (Enters p.code) t d u := by
  constructor
  · have hmem : t ∈ List.range' 1 p.body.operations := List.mem_range'_1.mpr ⟨hlo, by omega⟩
    rw [← count_usedTemps, p.usedTemps_code.count_eq]
    exact List.count_eq_one_of_mem List.nodup_range' hmem
  · have hconfined : Confined (Enters p.code) p.body p.symbols.length 1 := by
      intro i hi _ _
      exact enters_body hi
    exact lives_statement p.body p.codeAt_body hconfined t hlo (by omega)

theorem instruction_of_mem_code {q : Quad} (hq : q ∈ p.code) :
    Instruction (fun _ => True) (fun _ => True) q :=
  instruction_of_mem (fun _ _ => trivial)
    (p.body.uses_of_forall (fun _ => trivial) (fun _ => trivial)) hq

end SourceProgram

namespace Analysis

/-- **Temporaries are computed once, used once, and local to straight-line code.** -/
theorem temporaries_used_once {source : String} {a : Analysis} (h : (ofSource source).1 = .ok a) :
    (∀ q ∈ a.program.quads.toList, q.op.computes = true ↔ ∃ t, q.result = some (.temp t)) ∧
    ∃ n, (a.program.quads.toList.filter (·.op.computes)).map Quad.result =
        (List.range' 1 n).map (fun t => some (.temp t)) ∧
      ∀ t, 1 ≤ t → t ≤ n →
        (a.program.quads.toList.flatMap Quad.arguments).count (.temp t) = 1 ∧
        ∃ d u, Lives a.program.quads.toList (Enters a.program.quads.toList) t d u := by
  obtain ⟨tree, haccepted⟩ := exists_accepted h
  rw [haccepted.code]
  refine ⟨fun q hq => (SourceProgram.instruction_of_mem_code hq).computes_iff,
    tree.meaning.body.operations, tree.meaning.results_code, fun t hlo hhi => ?_⟩
  exact SourceProgram.lives_code hlo hhi

theorem temporaries_used_once_countdown :
    ∃ a, (ofSource countdown).1 = .ok a ∧
      (∀ q ∈ a.program.quads.toList, q.op.computes = true ↔ ∃ t, q.result = some (.temp t)) ∧
      (a.program.quads.toList.filter (·.op.computes)).map Quad.result =
        [some (.temp 1), some (.temp 2), some (.temp 3), some (.temp 4), some (.temp 5),
          some (.temp 6)] ∧
      ∀ t, 1 ≤ t → t ≤ 6 →
        (a.program.quads.toList.flatMap Quad.arguments).count (.temp t) = 1 ∧
        ∃ d u, Lives a.program.quads.toList (Enters a.program.quads.toList) t d u := by
  obtain ⟨a, ha, hsix⟩ : ∃ a, (ofSource countdown).1 = .ok a ∧
      (a.program.quads.toList.filter (·.op.computes)).length = 6 :=
    exists_of_map_toOption (by decide +kernel)
  obtain ⟨hcomputes, n, hresults, hlives⟩ := temporaries_used_once ha
  obtain rfl : n = 6 := by simpa [hsix] using (congrArg List.length hresults).symm
  exact ⟨a, ha, hcomputes, hresults, hlives⟩

end Analysis

end ThreeAddress
