import ThreeAddress.Proofs.Code.Temporaries
import Mathlib.Logic.Relation

/-!
# The control flow of a program

From an instruction a program goes on to the next one, or to the target of a jump (`Flows`). The
code of a statement is a part of this graph with one way in and one way out: every instruction of it
is reached from where it begins, and from every instruction of it the end is reached
(`connected_statement`). Its jumps stay inside (`wellPlaced_statement`). A program is the code of
its declarations, that of its body, and `halt`, one behind the other, so it has no instruction that
is never run and none from which it cannot end.
-/

namespace ThreeAddress

open Relation (ReflTransGen)

variable {code part : List Quad} {base next i j k limit lo mid hi : Nat} {q : Quad}

/-! ## 1. The graph -/

/-- Whether the next instruction is run after this one, whatever happens. -/
def Operator.goesOn : Operator → Bool
  | jumpIfFalse | jump | halt => false
  | _ => true

theorem Operator.goesOn_of_computes {op : Operator} (h : op.computes = true) :
    op.goesOn = true := by
  cases op <;> simp [computes, isArithmetic, isComparison, goesOn] at h ⊢

theorem Operator.isJump_of_goesOn {op : Operator} (h : op.goesOn = true) : op.isJump = false := by
  cases op <;> simp [goesOn, isJump] at h ⊢

/-- The instruction `j` may be run right after the instruction `i`. -/
inductive Flows (code : List Quad) : Nat → Nat → Prop
  | next {i : Nat} {q : Quad} (hq : code[i]? = some q) (hjump : q.op ≠ .jump)
      (hhalt : q.op ≠ .halt) : Flows code i (i + 1)
  | jump {i j : Nat} {q : Quad} (hq : code[i]? = some q) (ht : q.target? = some j) : Flows code i j

/-- The instruction `j` may be run after the instruction `i`, or is the same. -/
def Reaches (code : List Quad) : Nat → Nat → Prop :=
  ReflTransGen (Flows code)

theorem Flows.of_goesOn (hq : code[i]? = some q) (h : q.op.goesOn = true) :
    Flows code i (i + 1) := by
  refine .next hq ?_ ?_ <;> · intro hop; simp [hop, Operator.goesOn] at h

/-- A jump if false may go to its target or go on. -/
theorem Flows.of_branch {a : Option Operand}
    (hq : code[i]? = some (.jump .jumpIfFalse a (.line j))) :
    Flows code i (i + 1) ∧ Flows code i j :=
  ⟨.next hq (by simp [Quad.jump]) (by simp [Quad.jump]), .jump hq rfl⟩

/-- A part of the graph with one way in and one way out. -/
structure Connected (code : List Quad) (lo hi : Nat) : Prop where
  le : lo ≤ hi
  enter : ∀ i, lo ≤ i → i ≤ hi → Reaches code lo i
  leave : ∀ i, lo ≤ i → i ≤ hi → Reaches code i hi

namespace Connected

theorem refl (lo : Nat) : Connected code lo lo where
  le := Nat.le_refl lo
  enter _ hlo hhi := Nat.le_antisymm hlo hhi ▸ .refl
  leave _ hlo hhi := Nat.le_antisymm hlo hhi ▸ .refl

theorem through (h : Connected code lo hi) : Reaches code lo hi :=
  h.enter hi h.le (Nat.le_refl hi)

/-- One part behind another. -/
theorem trans (h : Connected code lo mid) (h' : Connected code mid hi) : Connected code lo hi where
  le := Nat.le_trans h.le h'.le
  enter i hlo hhi := by
    rcases Nat.le_total i mid with hi | hi
    · exact h.enter i hlo hi
    · exact h.through.trans (h'.enter i hi hhi)
  leave i hlo hhi := by
    rcases Nat.le_total i mid with hi | hi
    · exact (h.leave i hlo hi).trans h'.through
    · exact h'.leave i hi hhi

theorem of_flows (h : Flows code i (i + 1)) : Connected code i (i + 1) where
  le := Nat.le_succ i
  enter j hlo hhi := by
    rcases Nat.lt_or_eq_of_le hhi with hlt | rfl
    · rw [Nat.le_antisymm (Nat.lt_succ_iff.mp hlt) hlo]
      exact .refl
    · exact .single h
  leave j hlo hhi := by
    rcases Nat.lt_or_eq_of_le hhi with hlt | rfl
    · rw [Nat.le_antisymm (Nat.lt_succ_iff.mp hlt) hlo]
      exact .single h
    · exact .refl

/-- Code without jumps runs from its first instruction to its last. -/
theorem of_goesOn (h : CodeAt code base part) (hgo : ∀ q ∈ part, q.op.goesOn = true) :
    Connected code base (base + part.length) := by
  induction part generalizing base with
  | nil => exact refl base
  | cons q part ih =>
    obtain ⟨hq, hpart⟩ := h.cons
    have hfirst : Connected code base (base + 1) :=
      of_flows (.of_goesOn hq (hgo q List.mem_cons_self))
    have hrest := ih hpart fun q' hq' => hgo q' (List.mem_cons_of_mem q hq')
    rw [Nat.add_assoc, Nat.add_comm 1] at hrest
    exact hfirst.trans hrest

end Connected

/-! ## 2. Statements have one way in and one way out -/

theorem Expression.goesOn_of_mem {e : Expression} (hq : q ∈ e.code next) : q.op.goesOn = true :=
  Operator.goesOn_of_computes (by simp [Operator.computes, isArithmetic_of_mem hq])

theorem Test.goesOn_of_mem {t : Test} (hq : q ∈ t.code next) : q.op.goesOn = true := by
  simp only [code, List.mem_append, List.mem_singleton] at hq
  rcases hq with (hq | hq) | rfl
  · exact Expression.goesOn_of_mem hq
  · exact Expression.goesOn_of_mem hq
  · exact Operator.goesOn_of_computes t.comparison.computes_operator

theorem Statement.goesOn_of_mem_assign {name : String} {e : Expression}
    (hq : q ∈ (assign name e).code base next) : q.op.goesOn = true := by
  simp only [code, List.mem_append, List.mem_singleton] at hq
  rcases hq with hq | rfl
  · exact Expression.goesOn_of_mem hq
  · rfl

theorem connected_test {t : Test} (h : CodeAt code base (t.code next)) :
    Connected code base (base + t.operations) := by
  have hstraight := Connected.of_goesOn h fun q hq => Test.goesOn_of_mem hq
  rwa [Test.length_code] at hstraight

/-- A test, two branches, and a jump from the end of the first branch over the second. -/
theorem Connected.ite {test onTrue leap onFalse stop : Nat} {a : Option Operand}
    (ht : Connected code base test)
    (hbranch : code[test]? = some (.jump .jumpIfFalse a (.line onFalse)))
    (htrue : test + 1 = onTrue) (ha : Connected code onTrue leap)
    (hleap : code[leap]? = some (.jump .jump none (.line stop)))
    (hfalse : leap + 1 = onFalse) (hb : Connected code onFalse stop) :
    Connected code base stop := by
  subst htrue hfalse
  obtain ⟨hgoTrue, hgoFalse⟩ := Flows.of_branch hbranch
  have htoTrue : Reaches code base (test + 1) := ht.through.tail hgoTrue
  have htoFalse : Reaches code base (leap + 1) := ht.through.tail hgoFalse
  have hstop : Reaches code test stop := .head hgoFalse hb.through
  have hle := ha.le
  refine ⟨Nat.le_trans (by have := ht.le; omega) hb.le, fun i hlo hhi => ?_, fun i hlo hhi => ?_⟩
  · -- the instruction is in the test, in the first branch or in the second one
    by_cases hi : i ≤ test
    · exact ht.enter i hlo hi
    by_cases hi' : i ≤ leap
    · exact htoTrue.trans (ha.enter i (by omega) hi')
    · exact htoFalse.trans (hb.enter i (by omega) hhi)
  · by_cases hi : i ≤ test
    · exact (ht.leave i hlo hi).trans hstop
    by_cases hi' : i ≤ leap
    · exact (ha.leave i (by omega) hi').tail (.jump hleap rfl)
    · exact hb.leave i (by omega) hhi

/-- A test, a body, and a jump from the end of the body back to the test. -/
theorem Connected.loop {test body back stop : Nat} {a : Option Operand}
    (ht : Connected code base test)
    (hbranch : code[test]? = some (.jump .jumpIfFalse a (.line stop)))
    (hbody : test + 1 = body) (ha : Connected code body back)
    (hback : code[back]? = some (.jump .jump none (.line base))) (hstop : back + 1 = stop) :
    Connected code base stop := by
  subst hbody hstop
  obtain ⟨hgoBody, hgoStop⟩ := Flows.of_branch hbranch
  have htoBody : Reaches code base (test + 1) := ht.through.tail hgoBody
  have hend : Reaches code base (back + 1) := ht.through.tail hgoStop
  have hle := ha.le
  refine ⟨by have := ht.le; omega, fun i hlo hhi => ?_, fun i hlo hhi => ?_⟩
  · by_cases hi : i ≤ test
    · exact ht.enter i hlo hi
    by_cases hi' : i ≤ back
    · exact htoBody.trans (ha.enter i (by omega) hi')
    · rwa [show i = back + 1 by omega]
  · by_cases hi : i ≤ test
    · exact (ht.leave i hlo hi).tail hgoStop
    by_cases hi' : i ≤ back
    · -- out of the body the only way is around once more
      exact ((ha.leave i (by omega) hi').tail (.jump hback rfl)).trans hend
    · rw [show i = back + 1 by omega]
      exact .refl

/-- **The code of a statement has one way in and one way out**, and nothing that is not on some way
through. -/
theorem connected_statement (s : Statement) (h : CodeAt code base (s.code base next)) :
    Connected code base (base + s.size) := by
  induction s generalizing base next with
  | skip => exact .refl base
  | read | write => exact .of_flows (.of_goesOn h.cons.1 rfl)
  | assign name e =>
    have hgo := Connected.of_goesOn h fun q hq => Statement.goesOn_of_mem_assign hq
    rwa [Statement.length_code] at hgo
  | seq a b iha ihb =>
    obtain ⟨ha, hb⟩ := CodeAt.append h
    rw [Statement.length_code] at hb
    rw [Statement.size, ← Nat.add_assoc]
    exact (iha ha).trans (ihb hb)
  | ite t a b iha ihb =>
    obtain ⟨htest, hbranch⟩ := CodeAt.append h
    rw [Test.length_code] at hbranch
    obtain ⟨ha, hleap, hb⟩ := CodeAt.ite h
    have hconnected :=
      (connected_test htest).ite hbranch.cons.1 rfl (iha ha) hleap.cons.1 rfl (ihb hb)
    simpa only [Statement.size, Nat.add_assoc] using hconnected
  | loop t a iha =>
    obtain ⟨htest, hbranch⟩ := CodeAt.append h
    rw [Test.length_code] at hbranch
    obtain ⟨ha, hback⟩ := CodeAt.loop h
    have hconnected := (connected_test htest).loop hbranch.cons.1 rfl (iha ha) hback.cons.1 rfl
    simpa only [Statement.size, Nat.add_assoc] using hconnected

/-! ## 3. Jumps -/

/-- What may stand at the index `i` of code whose jumps go no further than `limit`. -/
inductive WellPlaced (code : List Quad) (limit i : Nat) : Quad → Prop
  | plain {q : Quad} (h : q.op.goesOn = true) : WellPlaced code limit i q
  | branch {p : Quad} {t j d : Nat} (hd : i = d + 1) (hp : code[d]? = some p)
      (hop : p.op.isComparison = true) (hr : p.result = some (.temp t)) (hlt : i + 1 < j)
      (hle : j ≤ limit) : WellPlaced code limit i (.jump .jumpIfFalse (some (.temp t)) (.line j))
  | jump {j : Nat} (hne : j ≠ i) (hle : j ≤ limit) :
      WellPlaced code limit i (.jump .jump none (.line j))

theorem WellPlaced.mono {limit' : Nat} (h : WellPlaced code limit i q) (hle : limit ≤ limit') :
    WellPlaced code limit' i q := by
  cases h with
  | plain hgo => exact .plain hgo
  | branch hd hp hop hr hlt hj => exact .branch hd hp hop hr hlt (Nat.le_trans hj hle)
  | jump hne hj => exact .jump hne (Nat.le_trans hj hle)

/-- A test and the jump on its outcome. -/
theorem wellPlaced_test {t : Test} {rest : List Quad}
    (h : CodeAt code base
      (t.code next ++ .jump .jumpIfFalse (some (.temp (t.temp next))) (.line j) :: rest))
    (hj : base + t.operations + 1 < j) (hjl : j ≤ limit) (hlo : base ≤ i)
    (hhi : i < base + t.operations + 1) (hq : code[i]? = some q) : WellPlaced code limit i q := by
  obtain ⟨htest, hjump⟩ := h.append
  rw [Test.length_code] at hjump
  rcases Nat.lt_succ_iff_lt_or_eq.mp hhi with hi | rfl
  · exact .plain (Test.goesOn_of_mem (htest.mem hlo (by simpa using hi) hq))
  · obtain ⟨-, hcompare⟩ := CodeAt.append htest
    rw [List.length_append, Expression.length_code, Expression.length_code] at hcompare
    rw [hjump.cons.1] at hq
    cases hq
    exact .branch rfl hcompare.cons.1 t.comparison.isComparison_operator rfl hj hjl

/-- **The jumps of a statement stay in its code.** A jump on the outcome of a test stands right
behind the test and skips at least one instruction, and no jump goes to itself. -/
theorem wellPlaced_statement (s : Statement) (h : CodeAt code base (s.code base next))
    (hlo : base ≤ i) (hhi : i < base + s.size) (hq : code[i]? = some q) :
    WellPlaced code (base + s.size) i q := by
  induction s generalizing base next with
  | skip => exact absurd hhi (by simpa [Statement.size] using hlo)
  | read | write =>
    have hmem := h.mem hlo hhi hq
    rw [List.mem_singleton.mp hmem]
    exact .plain rfl
  | assign name e =>
    have hmem := h.mem hlo (by rwa [Statement.length_code]) hq
    exact .plain (Statement.goesOn_of_mem_assign hmem)
  | seq a b iha ihb =>
    obtain ⟨ha, hb⟩ := CodeAt.append h
    rw [Statement.length_code] at hb
    rw [Statement.size, ← Nat.add_assoc] at hhi ⊢
    by_cases hi : i < base + a.size
    · exact (iha ha hlo hi).mono (Nat.le_add_right ..)
    · exact ihb hb (Nat.le_of_not_lt hi) hhi
  | ite t a b iha ihb =>
    obtain ⟨ha, hleap, hb⟩ := CodeAt.ite h
    simp only [Statement.size] at hhi ⊢
    by_cases ht : i < base + t.operations + 1
    · exact wellPlaced_test h (by omega) (by omega) hlo ht hq
    by_cases hia : i < base + t.operations + 1 + a.size
    · exact (iha ha (by omega) hia).mono (by omega)
    by_cases hib : base + t.operations + 1 + a.size + 1 ≤ i
    · exact (ihb hb hib (by omega)).mono (by omega)
    · obtain rfl : i = base + t.operations + 1 + a.size := by omega
      rw [hleap.cons.1] at hq
      cases hq
      exact .jump (by omega) (by omega)
  | loop t a iha =>
    obtain ⟨ha, hback⟩ := CodeAt.loop h
    simp only [Statement.size] at hhi ⊢
    by_cases ht : i < base + t.operations + 1
    · exact wellPlaced_test h (by omega) (by omega) hlo ht hq
    by_cases hia : i < base + t.operations + 1 + a.size
    · exact (iha ha (by omega) hia).mono (by omega)
    · obtain rfl : i = base + t.operations + 1 + a.size := by omega
      rw [hback.cons.1] at hq
      cases hq
      exact .jump (by omega) (by omega)

/-! ## 4. Programs -/

/-- **The control flow is well formed**, and there is no instruction that is never run and none from
which the program cannot end. -/
structure WellFormedFlow (code : List Quad) : Prop where
  /-- there is a last instruction, and it is the one that halts -/
  nonempty : code ≠ []
  halt : ∀ (i : Nat) (q : Quad), code[i]? = some q → (q.op = .halt ↔ i + 1 = code.length)
  resolved : ∀ q ∈ code, q.op.isJump = true → ∃ j, q.target? = some j ∧ j < code.length
  /-- a jump on the outcome of a test comes right after the test, and skips something -/
  branch : ∀ (i : Nat) (q : Quad), code[i]? = some q → q.op = .jumpIfFalse →
    (∃ j, q.target? = some j ∧ i + 1 < j) ∧
    ∃ d p t, i = d + 1 ∧ code[d]? = some p ∧ p.op.isComparison = true ∧
      p.result = some (.temp t) ∧ q.arg1 = some (.temp t)
  jump : ∀ (i : Nat) (q : Quad), code[i]? = some q → q.op = .jump →
    q.arg1 = none ∧ q.arg2 = none ∧ q.target? ≠ some i
  reachable : ∀ i < code.length, Reaches code 0 i
  ends : ∀ i < code.length, Reaches code i (code.length - 1)

/-- Code that ends with `halt`, and whose other instructions are placed well. -/
theorem WellFormedFlow.of_wellPlaced (hlength : code.length = limit + 1)
    (hhalt : code[limit]? = some { op := .halt })
    (hplaced : ∀ (i : Nat) (q : Quad), i < limit → code[i]? = some q → WellPlaced code limit i q)
    (hconnected : Connected code 0 limit) : WellFormedFlow code := by
  -- every instruction is the last one or is placed well
  have hcases : ∀ (i : Nat) (q : Quad), code[i]? = some q →
      (i = limit ∧ q = { op := .halt }) ∨ (i < limit ∧ WellPlaced code limit i q) := by
    intro i q hq
    have hi := (List.getElem?_eq_some_iff.mp hq).1
    rcases Nat.lt_succ_iff_lt_or_eq.mp (hlength ▸ hi) with hlt | rfl
    · exact .inr ⟨hlt, hplaced i q hlt hq⟩
    · rw [hhalt] at hq
      exact .inl ⟨rfl, (Option.some.inj hq).symm⟩
  refine ⟨?_, ?_, ?_, ?_, ?_, ?_, ?_⟩
  · rintro rfl
    cases hlength
  · intro i q hq
    rcases hcases i q hq with ⟨rfl, rfl⟩ | ⟨hlt, hplace⟩
    · exact iff_of_true rfl hlength.symm
    · refine iff_of_false (fun hop => ?_) (by omega)
      cases hplace with
      | plain hgo => simp [hop, Operator.goesOn] at hgo
      | branch | jump => cases hop
  · intro q hmem hjump
    obtain ⟨i, hq⟩ := List.mem_iff_getElem?.mp hmem
    rcases hcases i q hq with ⟨rfl, rfl⟩ | ⟨hlt, hplace⟩
    · cases hjump
    · cases hplace with
      | plain hgo => simp [Operator.isJump_of_goesOn hgo] at hjump
      | branch hd hp hop hr hj hle => exact ⟨_, rfl, by omega⟩
      | jump hne hle => exact ⟨_, rfl, by omega⟩
  · intro i q hq hop
    rcases hcases i q hq with ⟨rfl, rfl⟩ | ⟨hlt, hplace⟩
    · cases hop
    · cases hplace with
      | plain hgo => simp [hop, Operator.goesOn] at hgo
      | branch hd hp hcompare hr hj => exact ⟨⟨_, rfl, hj⟩, _, _, _, hd, hp, hcompare, hr, rfl⟩
      | jump => cases hop
  · intro i q hq hop
    rcases hcases i q hq with ⟨rfl, rfl⟩ | ⟨hlt, hplace⟩
    · cases hop
    · cases hplace with
      | plain hgo => simp [hop, Operator.goesOn] at hgo
      | branch => cases hop
      | jump hne => exact ⟨rfl, rfl, fun ht => hne (Option.some.inj ht)⟩
  · intro i hi
    exact hconnected.enter i (Nat.zero_le i) (by omega)
  · intro i hi
    rw [hlength]
    exact hconnected.leave i (Nat.zero_le i) (by omega)

theorem SourceProgram.wellFormed_code (p : SourceProgram) : WellFormedFlow p.code := by
  obtain ⟨hrest, hhalt⟩ : CodeAt p.code 0 _ ∧ CodeAt p.code _ [{ op := .halt }] :=
    CodeAt.append ⟨[], by rw [List.append_nil]; rfl⟩
  obtain ⟨hallocs, hbody⟩ := hrest.append
  simp only [List.length_append, List.length_map, Statement.length_code,
    Nat.zero_add] at hhalt hbody
  have hgo : ∀ q ∈ p.symbols.map Symbol.alloc, q.op.goesOn = true := by
    intro q hq
    obtain ⟨v, -, rfl⟩ := List.mem_map.mp hq
    rfl
  refine .of_wellPlaced (by simp [code, Nat.add_assoc]) hhalt.cons.1 (fun i q hi hq => ?_) ?_
  · by_cases hv : i < p.symbols.length
    · exact .plain (hgo q (hallocs.mem (Nat.zero_le i) (by simpa using hv) hq))
    · exact wellPlaced_statement p.body hbody (Nat.le_of_not_lt hv) hi hq
  · have hfirst := Connected.of_goesOn hallocs hgo
    rw [List.length_map, Nat.zero_add] at hfirst
    exact hfirst.trans (connected_statement p.body hbody)

namespace Analysis

/-- **The control flow of an accepted program is well formed.** -/
theorem wellFormed_controlFlow {source : String} {a : Analysis} (h : (ofSource source).1 = .ok a) :
    WellFormedFlow a.program.quads.toList := by
  obtain ⟨tree, haccepted⟩ := exists_accepted h
  rw [haccepted.code]
  exact tree.meaning.wellFormed_code

theorem wellFormed_controlFlow_countdown :
    ∃ a, (ofSource countdown).1 = .ok a ∧
      (a.program.quads.toList.filter (·.op.isJump)).map Quad.target? =
        [some 16, some 10, some 13, some 3] ∧ WellFormedFlow a.program.quads.toList := by
  obtain ⟨a, ha, hjumps⟩ : ∃ a, (ofSource countdown).1 = .ok a ∧
      (a.program.quads.toList.filter (·.op.isJump)).map Quad.target? =
        [some 16, some 10, some 13, some 3] := exists_of_map_toOption (by decide +kernel)
  exact ⟨a, ha, hjumps, wellFormed_controlFlow ha⟩

end Analysis

end ThreeAddress
