import Mathlib.Data.List.Induction
import ThreeAddress.Generator
import ThreeAddress.Proofs.Program.Provenance

/-!
# The calls of a generator

A generator hands out two kinds of things, temporaries and the handles of jumps, and it leaves it to
the caller what becomes of them. Handles may be used in any order, or never, and any operand may go
into an argument slot, a jump target included.

What a call can do is said once (`Generator.effect`). No call brings a hole into a result slot,
unless it issues the handle of this hole. So after any calls the handles that are outstanding are
the holes of the builder (`Generator.outstanding_iff`), and everything about patching and finishing
follows from the books of the builder.
-/

namespace ThreeAddress

/-! ## 1. Calls -/

/-- A call on a generator. Comparisons are made with a comparison operator. -/
inductive GeneratorCall where
  | allocate (name : String) (type : VarType)
  | read (name : String)
  | write (name : String)
  | store (name : String) (value : Value)
  | binary (op : Operator) (left right : Value)
  | negate (value : Value)
  | compare (op : { op : Operator // op.isComparison = true }) (left right : Value)
  | jumpIfFalse (condition : Condition)
  | jump
  | jumpTo (target : Nat)
  | patchHere (jump : PendingJump)
  | halt
deriving Repr, DecidableEq

namespace GeneratorCall

/-- Whether the call draws a temporary. -/
def draws : GeneratorCall → Bool
  | binary .. | negate .. | compare .. => true
  | _ => false

/-- The operator and the condition of the jump that the call appends without a target. -/
def forwardJump? : GeneratorCall → Option (Operator × Option Operand)
  | jumpIfFalse condition => some (.jumpIfFalse, some (.temp condition.temp))
  | jump => some (.jump, none)
  | _ => none

theorem draws_of_forwardJump? {call : GeneratorCall} {jump : Operator × Option Operand}
    (h : call.forwardJump? = some jump) : call.draws = false := by
  cases call <;> first | rfl | cases h

end GeneratorCall

/-- The answer to a call on a generator. -/
inductive GeneratorAnswer where
  | index (index : Nat)
  | value (value : Value)
  | condition (condition : Condition)
  | handle (jump : PendingJump)
  | patched
  | unpatched (failure : PatchFailure)
  | fault (fault : Fault)
deriving Repr, DecidableEq

namespace GeneratorAnswer

def ofResult {α : Type} (answer : α → GeneratorAnswer) : Except Fault α → GeneratorAnswer
  | .ok a => answer a
  | .error f => fault f

def ofPatch : Except PatchFailure Unit → GeneratorAnswer
  | .ok () => patched
  | .error failure => unpatched failure

/-- The temporary that the answer gives to the caller. -/
def temp? : GeneratorAnswer → Option Nat
  | value ⟨.temp n, _⟩ => some n
  | condition ⟨n⟩ => some n
  | _ => none

theorem ofPatch_eq_patched_iff {result : Except PatchFailure Unit} :
    ofPatch result = patched ↔ result = .ok () := by
  rcases result with failure | ⟨⟩ <;> simp [ofPatch]

theorem ofPatch_ne_handle (result : Except PatchFailure Unit) (jump : PendingJump) :
    ofPatch result ≠ handle jump := by
  rcases result with failure | ⟨⟩ <;> simp [ofPatch]

theorem temp?_ofPatch (result : Except PatchFailure Unit) : (ofPatch result).temp? = none := by
  rcases result with failure | ⟨⟩ <;> rfl

end GeneratorAnswer

/-- The same call, with its answer in another form. -/
def Step.map {σ α β : Type} (f : α → β) (s : Step σ α) : Step σ β :=
  ⟨f s.answer, s.next, s.events⟩

namespace Generator

def perform (g : Generator) : GeneratorCall → Step Generator GeneratorAnswer
  | .allocate name type => (g.allocate name type).map .index
  | .read name => (g.read name).map .index
  | .write name => (g.write name).map .index
  | .store name value => (g.store name value).map .index
  | .binary op left right => (g.binary op left right).map (.ofResult .value)
  | .negate value => (g.negate value).map (.ofResult .value)
  | .compare op left right => (g.compare op left right).map (.ofResult .condition)
  | .jumpIfFalse condition => (g.jumpIfFalse condition).map (.ofResult .handle)
  | .jump => g.jump.map (.ofResult .handle)
  | .jumpTo target => (g.jumpTo target).map (.ofResult .index)
  | .patchHere jump => (g.patchHere jump).map .ofPatch
  | .halt => g.halt.map .index

/-- The answer to a call. -/
def answer (g : Generator) (call : GeneratorCall) : GeneratorAnswer :=
  (g.perform call).answer

/-- The generator after a call. -/
def after (g : Generator) (call : GeneratorCall) : Generator :=
  (g.perform call).next

/-- A new generator after some calls. -/
def ofCalls (calls : List GeneratorCall) : Generator :=
  calls.foldl after {}

theorem ofCalls_concat (calls : List GeneratorCall) (call : GeneratorCall) :
    ofCalls (calls ++ [call]) = (ofCalls calls).after call :=
  List.foldl_append ..

/-! ## 2. What a call can do -/

/-- **What drawing a temporary can do.** -/
theorem compute_cases {α : Type} (g : Generator) (quad : Operand → Quad) (answer : Nat → α) :
    (g.temps + 1 < tempLimit ∧ g.compute quad answer = ⟨.ok (answer (g.temps + 1)),
      ⟨(g.builder.emit (quad (.temp (g.temps + 1)))).next, g.temps + 1⟩,
      [.emitted g.nextIndex (quad (.temp (g.temps + 1)))]⟩) ∨
    (tempLimit ≤ g.temps + 1 ∧ g.compute quad answer = ⟨.error .additionOverflow, g, []⟩) := by
  by_cases hlimit : g.temps + 1 < tempLimit
  · exact .inl ⟨hlimit, if_pos hlimit⟩
  · exact .inr ⟨Nat.le_of_not_lt hlimit, if_neg hlimit⟩

/-- What a call can do: append an instruction without a hole, append a jump with a hole and issue
the handle of it, patch, or find no temporary left. -/
inductive Effect (g : Generator) (call : GeneratorCall) : GeneratorAnswer → Generator → Prop where
  | appends {answer : GeneratorAnswer} {g' : Generator} (quad : Quad) (whole : quad.hole? = none)
      (builder : g'.builder = (g.builder.emit quad).next)
      (temps : g'.temps = g.temps + call.draws.toNat)
      (noHandle : ∀ jump, answer ≠ .handle jump) (noPatch : ∀ jump, call ≠ .patchHere jump)
      (drawn : answer.temp? = if call.draws then some (g.temps + 1) else none) :
      Effect g call answer g'
  | issues (op : Operator) (condition : Option Operand)
      (forward : call.forwardJump? = some (op, condition)) (isJump : op.isJump = true) :
      Effect g call (.handle ⟨g.nextIndex, g.builder.nextHole⟩)
        ⟨(g.builder.emitJump op condition).next, g.temps⟩
  | patches {jump : PendingJump} (isPatch : call = .patchHere jump) :
      Effect g call (.ofPatch (g.builder.patch jump g.nextIndex).answer)
        ⟨(g.builder.patch jump g.nextIndex).next, g.temps⟩
  | exhausted (draws : call.draws = true) (limit : tempLimit ≤ g.temps + 1) :
      Effect g call (.fault .additionOverflow) g

variable {call : GeneratorCall}

theorem effect_of_emit (g : Generator) (quad : Quad)
    (hperform : g.perform call = (g.emit quad).map .index)
    (hdraws : call.draws = false) (hwhole : quad.hole? = none)
    (hpatch : ∀ jump, call ≠ .patchHere jump) : Effect g call (g.answer call) (g.after call) := by
  rw [Generator.answer, after, hperform]
  refine .appends quad hwhole rfl ?_ ?_ hpatch ?_
  · rw [hdraws]
    rfl
  · intro jump heq
    cases heq
  · rw [hdraws]
    rfl

theorem effect_of_compute {α : Type} (g : Generator) {quad : Operand → Quad} {answer : Nat → α}
    {form : α → GeneratorAnswer}
    (hperform : g.perform call = (g.compute quad answer).map (.ofResult form))
    (hdraws : call.draws = true)
    (hwhole : ∀ n, (quad (.temp n)).hole? = none) (htemp : ∀ n, (form (answer n)).temp? = some n) :
    Effect g call (g.answer call) (g.after call) := by
  rw [Generator.answer, after, hperform]
  rcases g.compute_cases quad answer with ⟨-, heq⟩ | ⟨hlimit, heq⟩
  · rw [heq]
    refine .appends _ (hwhole _) rfl ?_ ?_ ?_ ?_
    · rw [hdraws]
      rfl
    · -- an answer with a temporary in it is not a handle
      intro jump hhandle
      have hsome := htemp (g.temps + 1)
      change form (answer (g.temps + 1)) = _ at hhandle
      rw [hhandle] at hsome
      cases hsome
    · rintro jump rfl
      cases hdraws
    · rw [hdraws, if_pos rfl]
      exact htemp _
  · rw [heq]
    exact .exhausted hdraws hlimit

theorem effect (g : Generator) (call : GeneratorCall) :
    Effect g call (g.answer call) (g.after call) := by
  cases call with
  | allocate name type => exact g.effect_of_emit _ rfl rfl rfl (by simp)
  | read name => exact g.effect_of_emit _ rfl rfl rfl (by simp)
  | write name => exact g.effect_of_emit _ rfl rfl rfl (by simp)
  | store name value => exact g.effect_of_emit _ rfl rfl rfl (by simp)
  | jumpTo target => exact g.effect_of_emit (.jump .jump none (.line target)) rfl rfl rfl (by simp)
  | halt => exact g.effect_of_emit _ rfl rfl rfl (by simp)
  | binary op left right => exact g.effect_of_compute rfl rfl (fun _ => rfl) (fun _ => rfl)
  | negate value => exact g.effect_of_compute rfl rfl (fun _ => rfl) (fun _ => rfl)
  | compare op left right =>
    -- the other branch of a comparison is for operators that do not compare
    have hcompare : g.compare op left right = g.compute
        (fun temp => ⟨op, some left.operand, some right.operand, some temp⟩) (fun temp => ⟨temp⟩) :=
      if_pos op.2
    have hperform := congrArg (Step.map (GeneratorAnswer.ofResult .condition)) hcompare
    exact g.effect_of_compute hperform rfl (fun _ => rfl) (fun _ => rfl)
  | jumpIfFalse condition => exact .issues .jumpIfFalse _ rfl rfl
  | jump => exact .issues .jump _ rfl rfl
  | patchHere jump => exact .patches rfl

end Generator

/-! ## 3. Holes under the calls -/

namespace Builder

variable {b : Builder} {jump jump' : PendingJump} {q quad : Quad} {op : Operator}
  {condition : Option Operand}

theorem HoleAt.lt (h : b.HoleAt jump q) : jump.index < b.nextIndex :=
  (Array.getElem?_eq_some_iff.mp h.1).1

/-- The index of a hole says which one it is. -/
theorem HoleAt.eq_of_index {q' : Quad} (h : b.HoleAt jump q) (h' : b.HoleAt jump' q')
    (hindex : jump.index = jump'.index) : jump = jump' := by
  obtain ⟨hget, hresult⟩ := h
  rw [hindex, h'.1, Option.some_inj] at hget
  subst hget
  rw [h'.2] at hresult
  obtain ⟨index, hole⟩ := jump
  obtain ⟨index', hole'⟩ := jump'
  cases hindex
  cases hresult
  rfl

theorem holeAt_emit (hwhole : quad.hole? = none) :
    (b.emit quad).next.HoleAt jump q ↔ b.HoleAt jump q := by
  unfold HoleAt
  rw [show (b.emit quad).next.quads = b.quads.push quad from rfl, Array.getElem?_push]
  split
  · -- at the end there is the new instruction, and there was nothing
    rename_i hindex
    rw [hindex, Array.getElem?_eq_none (Nat.le_refl _)]
    refine iff_of_false ?_ (by simp)
    rintro ⟨hq, hresult⟩
    cases hq
    rw [Quad.hole?_eq_some_iff.mpr hresult] at hwhole
    cases hwhole
  · rfl

theorem holeAt_emitJump (hop : op.isJump = true) :
    (b.emitJump op condition).next.HoleAt jump q ↔ b.HoleAt jump q ∨
      jump = ⟨b.nextIndex, b.nextHole⟩ ∧ q = .jump op condition (.pending b.nextHole) := by
  rw [emitJump_of_isJump hop]
  unfold HoleAt
  rw [Array.getElem?_push]
  obtain ⟨index, hole⟩ := jump
  split
  · rename_i hindex
    dsimp only at hindex
    subst hindex
    rw [Array.getElem?_eq_none (Nat.le_refl _)]
    constructor
    · rintro ⟨hq, hresult⟩
      cases hq
      cases hresult
      exact .inr ⟨rfl, rfl⟩
    · rintro (⟨hq, -⟩ | ⟨hjump, rfl⟩)
      · cases hq
      · cases hjump
        exact ⟨rfl, rfl⟩
  · rename_i hindex
    refine (or_iff_left ?_).symm
    rintro ⟨hjump, -⟩
    cases hjump
    exact hindex rfl

/-- A patch at the end takes away the hole of its handle, and no other. -/
theorem Balanced.holeAt_patch (h : b.Balanced) :
    (b.patch jump' b.nextIndex).next.HoleAt jump q ↔ b.HoleAt jump q ∧ jump ≠ jump' := by
  rcases h.patch_outcome jump' b.nextIndex with ⟨-, -, q', hhole, hquads⟩ | ⟨⟨error, heq⟩, hnone⟩
  · unfold HoleAt
    rw [hquads, Array.getElem?_setIfInBounds]
    split
    · -- one index has one hole, so a handle for this one is the handle that is used
      rename_i hindex
      refine iff_of_false ?_ ?_
      · rintro ⟨hq, hresult⟩
        rw [if_pos (hindex ▸ hhole.lt)] at hq
        cases hq
        cases hresult
      · rintro ⟨hthere, hne⟩
        exact hne (HoleAt.eq_of_index hthere hhole hindex.symm)
    · rename_i hindex
      refine (and_iff_left ?_).symm
      rintro rfl
      exact hindex rfl
  · rw [heq]
    refine (and_iff_left_of_imp ?_).symm
    rintro hthere rfl
    exact absurd (hnone q hthere) (Nat.lt_irrefl _)

end Builder

namespace Generator

variable {g g' : Generator} {call : GeneratorCall} {answer : GeneratorAnswer}
  {calls before rest : List GeneratorCall} {jump : PendingJump} {q : Quad}

theorem Effect.balanced (heffect : Effect g call answer g') (h : g.builder.Balanced) :
    g'.builder.Balanced := by
  cases heffect with
  | appends quad whole builder =>
    rw [builder]
    exact h.emit quad whole
  | issues op condition forward isJump => exact h.emitJump
  | patches isPatch => exact h.patch
  | exhausted draws limit => exact h

/-- **A hole comes with the handle that is issued for it, and goes when that handle is used.** -/
theorem Effect.holeAt_iff (heffect : Effect g call answer g') (h : g.builder.Balanced) :
    g'.builder.HoleAt jump q ↔ g.builder.HoleAt jump q ∧ call ≠ .patchHere jump ∨
      answer = .handle jump ∧ ∃ op condition, call.forwardJump? = some (op, condition) ∧
        q = .jump op condition (.pending jump.hole) := by
  cases heffect with
  | appends quad whole builder temps noHandle noPatch =>
    rw [builder, Builder.holeAt_emit whole, and_iff_left (noPatch jump)]
    exact (or_iff_left fun hissued => noHandle jump hissued.1).symm
  | issues op condition forward isJump =>
    have hcall : call ≠ .patchHere jump := by
      rintro rfl
      cases forward
    rw [Builder.holeAt_emitJump isJump, and_iff_left hcall]
    refine or_congr_right ⟨?_, ?_⟩
    · rintro ⟨rfl, rfl⟩
      exact ⟨rfl, op, condition, forward, rfl⟩
    · rintro ⟨hanswer, op', condition', hforward, rfl⟩
      cases hanswer
      rw [forward] at hforward
      cases hforward
      exact ⟨rfl, rfl⟩
  | @patches jump' isPatch =>
    subst isPatch
    rw [nextIndex, h.holeAt_patch]
    rw [or_iff_left fun hissued => GeneratorAnswer.ofPatch_ne_handle _ jump hissued.1]
    refine and_congr_right fun _ => not_congr ⟨?_, ?_⟩
    · rintro rfl
      rfl
    · intro heq
      cases heq
      rfl
  | exhausted draws limit =>
    have hcall : call ≠ .patchHere jump := by
      rintro rfl
      cases draws
    rw [and_iff_left hcall]
    refine (or_iff_left ?_).symm
    rintro ⟨hanswer, -⟩
    cases hanswer

/-- A handle is issued for the next instruction. -/
theorem Effect.forwardJump? (heffect : Effect g call answer g') (hanswer : answer = .handle jump) :
    jump.index = g.nextIndex ∧ ∃ op condition, call.forwardJump? = some (op, condition) := by
  cases heffect with
  | appends quad whole builder temps noHandle => exact absurd hanswer (noHandle jump)
  | issues op condition forward isJump =>
    cases hanswer
    exact ⟨rfl, op, condition, forward⟩
  | patches isPatch => exact absurd hanswer (GeneratorAnswer.ofPatch_ne_handle _ jump)
  | exhausted draws limit => cases hanswer

/-- An instruction without a hole stays as it is. -/
theorem Effect.keeps (heffect : Effect g call answer g') (h : g.builder.Balanced) {k : Nat}
    (hget : g.builder.quads[k]? = some q) (hwhole : q.hole? = none) :
    g'.builder.quads[k]? = some q := by
  have hpush : ∀ quad, (g.builder.quads.push quad)[k]? = some q := by
    intro quad
    have hlt := (Array.getElem?_eq_some_iff.mp hget).1
    rw [Array.getElem?_push_lt hlt, ← Array.getElem?_eq_getElem hlt]
    exact hget
  cases heffect with
  | appends quad whole builder =>
    rw [builder]
    exact hpush quad
  | issues op condition forward isJump =>
    rw [Builder.emitJump_of_isJump isJump]
    exact hpush _
  | @patches jump isPatch =>
    rcases h.patch_outcome jump g.nextIndex with ⟨-, -, q', hhole, hquads⟩ | ⟨⟨error, heq⟩, -⟩
    · rw [hquads, Array.getElem?_setIfInBounds_ne]
      · exact hget
      · rintro rfl
        rw [hhole.1] at hget
        cases hget
        rw [Quad.hole?_eq_some_iff.mpr hhole.2] at hwhole
        cases hwhole
    · rw [heq]
      exact hget
  | exhausted draws limit => exact hget

theorem Effect.nextIndex_le (heffect : Effect g call answer g') (h : g.builder.Balanced) :
    g.nextIndex ≤ g'.nextIndex := by
  unfold nextIndex Builder.nextIndex
  cases heffect with
  | appends quad whole builder => simp [builder, Builder.emit]
  | issues op condition forward isJump => simp [Builder.emitJump_of_isJump isJump]
  | @patches jump isPatch =>
    rcases h.patch_outcome jump g.nextIndex with ⟨-, -, q', hhole, hquads⟩ | ⟨⟨error, heq⟩, -⟩
    · simp [hquads]
    · simp [heq]
  | exhausted draws limit => exact Nat.le_refl _

/-- As long as there is a temporary left, a call gets one exactly if it draws one. -/
theorem Effect.drawn (heffect : Effect g call answer g')
    (hroom : g.temps + call.draws.toNat < tempLimit) :
    g'.temps = g.temps + call.draws.toNat ∧
      answer.temp? = if call.draws then some (g.temps + 1) else none := by
  cases heffect with
  | appends quad whole builder temps noHandle noPatch drawn => exact ⟨temps, drawn⟩
  | issues op condition forward isJump =>
    rw [GeneratorCall.draws_of_forwardJump? forward]
    exact ⟨rfl, rfl⟩
  | patches isPatch =>
    subst isPatch
    exact ⟨rfl, GeneratorAnswer.temp?_ofPatch _⟩
  | exhausted draws limit =>
    rw [draws, Bool.toNat_true] at hroom
    exact absurd hroom (Nat.not_lt.mpr limit)

/-! ## 4. Any calls -/

/-- The handle has been issued, and not been used since. -/
def Outstanding (calls : List GeneratorCall) (jump : PendingJump) : Prop :=
  ∃ before call rest, calls = before ++ call :: rest ∧ (ofCalls before).answer call = .handle jump ∧
    .patchHere jump ∉ rest

theorem not_outstanding_nil : ¬Outstanding [] jump := by
  rintro ⟨before, call, rest, heq, -⟩
  exact List.append_ne_nil_of_right_ne_nil before (List.cons_ne_nil call rest) heq.symm

theorem outstanding_concat : Outstanding (calls ++ [call]) jump ↔
    Outstanding calls jump ∧ call ≠ .patchHere jump ∨
    (ofCalls calls).answer call = .handle jump := by
  constructor
  · rintro ⟨before, issuing, rest, heq, hanswer, hunused⟩
    -- the handle is from the last call, or there was a call after the one that issued it
    rcases List.eq_nil_or_concat rest with rfl | ⟨rest, last, rfl⟩
    · obtain ⟨rfl, hcall⟩ := List.append_inj' heq rfl
      cases hcall
      exact .inr hanswer
    · rw [List.concat_eq_append, ← List.cons_append, ← List.append_assoc] at heq
      obtain ⟨rfl, hcall⟩ := List.append_inj' heq rfl
      cases hcall
      simp only [List.concat_eq_append, List.mem_append, List.mem_singleton, not_or] at hunused
      exact .inl
        ⟨⟨before, issuing, rest, rfl, hanswer, hunused.1⟩, fun hcall => hunused.2 hcall.symm⟩
  · rintro (⟨⟨before, issuing, rest, rfl, hanswer, hunused⟩, hcall⟩ | hanswer)
    · refine ⟨before, issuing, rest ++ [call], by simp, hanswer, ?_⟩
      rw [List.mem_append, List.mem_singleton, not_or]
      exact ⟨hunused, fun heq => hcall heq.symm⟩
    · exact ⟨calls, call, [], rfl, hanswer, List.not_mem_nil⟩

theorem balanced_ofCalls (calls : List GeneratorCall) : (ofCalls calls).builder.Balanced := by
  induction calls using List.reverseRecOn with
  | nil => exact Builder.balanced_new
  | append_singleton calls call ih =>
    rw [ofCalls_concat]
    exact (effect _ call).balanced ih

/-- A handle stands for a hole at the end, which is in the jump of the call that issued it. -/
theorem holeAt_of_answer (hanswer : (ofCalls calls).answer call = .handle jump) :
    jump.index = (ofCalls calls).nextIndex ∧ ∃ op condition,
      call.forwardJump? = some (op, condition) ∧
      (ofCalls (calls ++ [call])).builder.HoleAt jump
        (.jump op condition (.pending jump.hole)) := by
  have heffect := (ofCalls calls).effect call
  rw [hanswer] at heffect
  obtain ⟨hindex, op, condition, hforward⟩ := heffect.forwardJump? rfl
  refine ⟨hindex, op, condition, hforward, ?_⟩
  rw [ofCalls_concat, heffect.holeAt_iff (balanced_ofCalls calls)]
  exact .inr ⟨rfl, op, condition, hforward, rfl⟩

/-- **The handles that are outstanding are the holes.** -/
theorem outstanding_iff : Outstanding calls jump ↔ ∃ q, (ofCalls calls).builder.HoleAt jump q := by
  induction calls using List.reverseRecOn with
  | nil =>
    refine iff_of_false not_outstanding_nil ?_
    rintro ⟨q, hget, -⟩
    cases hget
  | append_singleton calls call ih =>
    have heffect := (ofCalls calls).effect call
    have hbalanced := balanced_ofCalls calls
    rw [outstanding_concat]
    constructor
    · rintro (⟨hout, hcall⟩ | hanswer)
      · obtain ⟨q, hhole⟩ := ih.mp hout
        rw [ofCalls_concat]
        exact ⟨q, (heffect.holeAt_iff hbalanced).mpr (.inl ⟨hhole, hcall⟩)⟩
      · obtain ⟨-, op, condition, -, hhole⟩ := holeAt_of_answer hanswer
        exact ⟨_, hhole⟩
    · rintro ⟨q, hhole⟩
      rw [ofCalls_concat, heffect.holeAt_iff hbalanced] at hhole
      rcases hhole with ⟨hhole, hcall⟩ | ⟨hanswer, -⟩
      · exact .inl ⟨ih.mpr ⟨q, hhole⟩, hcall⟩
      · exact .inr hanswer

/-- A hole stays in its jump until its handle is used. -/
theorem holeAt_append (hhole : (ofCalls before).builder.HoleAt jump q)
    (hunused : .patchHere jump ∉ rest) : (ofCalls (before ++ rest)).builder.HoleAt jump q := by
  induction rest using List.reverseRecOn with
  | nil => rwa [List.append_nil]
  | append_singleton rest call ih =>
    rw [List.mem_append, List.mem_singleton, not_or] at hunused
    rw [← List.append_assoc, ofCalls_concat, (effect _ call).holeAt_iff (balanced_ofCalls _)]
    exact .inl ⟨ih hunused.1, fun heq => hunused.2 heq.symm⟩

theorem getElem?_append {k : Nat} (hget : (ofCalls before).builder.quads[k]? = some q)
    (hwhole : q.hole? = none)
    (rest : List GeneratorCall) : (ofCalls (before ++ rest)).builder.quads[k]? = some q := by
  induction rest using List.reverseRecOn with
  | nil => rwa [List.append_nil]
  | append_singleton rest call ih =>
    rw [← List.append_assoc, ofCalls_concat]
    exact (effect _ call).keeps (balanced_ofCalls _) ih hwhole

theorem nextIndex_le_append (before rest : List GeneratorCall) :
    (ofCalls before).nextIndex ≤ (ofCalls (before ++ rest)).nextIndex := by
  induction rest using List.reverseRecOn with
  | nil => exact Nat.le_of_eq (by rw [List.append_nil])
  | append_singleton rest call ih =>
    rw [← List.append_assoc, ofCalls_concat]
    exact Nat.le_trans ih ((effect _ call).nextIndex_le (balanced_ofCalls _))

/-- The number of calls that draw a temporary. -/
def draws (calls : List GeneratorCall) : Nat :=
  calls.countP GeneratorCall.draws

theorem draws_concat (calls : List GeneratorCall) (call : GeneratorCall) :
    draws (calls ++ [call]) = draws calls + call.draws.toNat := by
  unfold draws
  rw [List.countP_append, List.countP_singleton]
  cases call.draws <;> rfl

theorem draws_le_append (before rest : List GeneratorCall) :
    draws before ≤ draws (before ++ rest) :=
  (List.sublist_append_left before rest).countP_le

/-- As long as the temporaries last, they are counted. -/
theorem temps_ofCalls (h : draws calls < tempLimit) : (ofCalls calls).temps = draws calls := by
  induction calls using List.reverseRecOn with
  | nil => rfl
  | append_singleton calls call ih =>
    have htemps := ih (Nat.lt_of_le_of_lt (draws_le_append calls [call]) h)
    rw [draws_concat] at h ⊢
    rw [ofCalls_concat, ← htemps]
    exact ((effect _ call).drawn (htemps ▸ h)).1

/-! ## 5. What a caller can rely on -/

/-- Patching to the end is refused only if there is no hole. -/
theorem patched_iff :
    (ofCalls calls).answer (.patchHere jump) = .patched ↔ Outstanding calls jump := by
  have hbalanced := balanced_ofCalls calls
  rw [outstanding_iff]
  refine GeneratorAnswer.ofPatch_eq_patched_iff.trans ⟨?_, ?_⟩
  · intro hanswer
    rcases hbalanced.patch_outcome jump (ofCalls calls).nextIndex with ⟨-, -, q, hhole, -⟩ |
      ⟨⟨error, heq⟩, -⟩
    · exact ⟨q, hhole⟩
    · change ((ofCalls calls).builder.patch jump (ofCalls calls).nextIndex).answer = _ at hanswer
      rw [heq] at hanswer
      cases hanswer
  · rintro ⟨q, hhole⟩
    exact hhole.patch hbalanced (Nat.le_refl _)

/-- The jump of a handle that is used goes to the next instruction. -/
theorem getElem?_patchHere (hhole : (ofCalls calls).builder.HoleAt jump q) :
    (ofCalls (calls ++ [.patchHere jump])).builder.quads[jump.index]? =
      some (q.aimed (ofCalls calls).nextIndex) := by
  rw [ofCalls_concat]
  rcases (balanced_ofCalls calls).patch_outcome jump (ofCalls calls).nextIndex with
    ⟨-, -, q', hhole', hquads⟩ | ⟨-, hnone⟩
  · obtain rfl : q = q' := Option.some_inj.mp (hhole.1.symm.trans hhole'.1)
    show ((ofCalls calls).builder.patch jump _).next.quads[jump.index]? = _
    rw [hquads, Array.getElem?_setIfInBounds_self_of_lt hhole.lt]
  · exact absurd (hnone q hhole) (Nat.lt_irrefl _)

/-- **A jump goes to the instruction that was next when its handle was used**, whatever came in
between and whatever comes later. -/
theorem target_of_patchHere {middle : List GeneratorCall}
    (hanswer : (ofCalls before).answer call = .handle jump)
    (hunused : .patchHere jump ∉ middle) (rest : List GeneratorCall) :
    ∃ op condition,
      call.forwardJump? = some (op, condition) ∧ jump.index = (ofCalls before).nextIndex ∧
      (ofCalls (before ++ call :: (middle ++ .patchHere jump :: rest))).builder.quads[jump.index]? =
        some (.jump op condition (.line (ofCalls (before ++ call :: middle)).nextIndex)) ∧
      jump.index < (ofCalls (before ++ call :: middle)).nextIndex ∧
      (ofCalls (before ++ call :: middle)).nextIndex ≤
        (ofCalls (before ++ call :: (middle ++ .patchHere jump :: rest))).nextIndex := by
  obtain ⟨hindex, op, condition, hforward, hissued⟩ := holeAt_of_answer hanswer
  have hmiddle : before ++ call :: middle = before ++ [call] ++ middle := by simp
  have hcalls : before ++ call :: (middle ++ .patchHere jump :: rest) =
      before ++ call :: middle ++ ([.patchHere jump] ++ rest) := by simp
  have hhole : (ofCalls (before ++ call :: middle)).builder.HoleAt jump _ :=
    hmiddle ▸ holeAt_append hissued hunused
  rw [hcalls]
  refine ⟨op, condition, hforward, hindex, ?_, hhole.lt, nextIndex_le_append _ _⟩
  rw [← List.append_assoc]
  exact getElem?_append (getElem?_patchHere hhole) (Quad.hole?_aimed _ _) rest

/-- An instruction waits for its target exactly if the handle of it is outstanding. -/
theorem exists_isPending_iff {k : Nat} :
    (∃ q, (ofCalls calls).builder.quads[k]? = some q ∧ q.isPending = true) ↔
      ∃ jump, Outstanding calls jump ∧ jump.index = k := by
  constructor
  · rintro ⟨q, hget, hpending⟩
    obtain ⟨hole, hresult⟩ := Quad.isPending_iff.mp hpending
    exact ⟨⟨k, hole⟩, outstanding_iff.mpr ⟨q, hget, hresult⟩, rfl⟩
  · rintro ⟨jump, hout, rfl⟩
    obtain ⟨q, hget, hresult⟩ := outstanding_iff.mp hout
    exact ⟨q, hget, Quad.isPending_iff.mpr ⟨_, hresult⟩⟩

theorem finish_of_none_outstanding (h : ∀ jump, ¬Outstanding calls jump) :
    (ofCalls calls).finish = .ok ⟨(ofCalls calls).builder.quads⟩ := by
  refine (balanced_ofCalls calls).finish.1 fun q hq => ?_
  obtain ⟨k, hget⟩ := List.mem_iff_getElem?.mp hq
  rw [Array.getElem?_toList] at hget
  by_contra hpending
  rw [Bool.not_eq_false] at hpending
  obtain ⟨jump, hout, -⟩ := exists_isPending_iff.mp ⟨q, hget, hpending⟩
  exact h jump hout

theorem finish_of_outstanding (h : ∃ jump, Outstanding calls jump) :
    ∃ jumps, (ofCalls calls).finish = .error jumps ∧ jumps.indices.Pairwise (· < ·) ∧
      ∀ k, k ∈ jumps.indices ↔ ∃ jump, Outstanding calls jump ∧ jump.index = k := by
  obtain ⟨jump, hout⟩ := h
  obtain ⟨q, hget, hpending⟩ := exists_isPending_iff.mpr ⟨jump, hout, rfl⟩
  rw [← Array.getElem?_toList] at hget
  refine ⟨_, (balanced_ofCalls calls).finish.2 ⟨q, List.mem_of_getElem? hget, hpending⟩,
    Builder.pairwise_pendingIndices _, fun k => ?_⟩
  exact Builder.mem_pendingIndices_iff.trans exists_isPending_iff

/-- The temporaries are numbered by the calls that draw them. -/
theorem temp?_answer (h : draws (calls ++ [call]) < tempLimit) :
    ((ofCalls calls).answer call).temp? = if call.draws then some (draws calls + 1) else none := by
  have htemps := temps_ofCalls (Nat.lt_of_le_of_lt (draws_le_append calls [call]) h)
  rw [draws_concat] at h
  rw [← htemps]
  exact (effect _ call).drawn (htemps ▸ h) |>.2

/-- What a caller of a generator can rely on, after the given calls. -/
structure ReliableAfter (calls : List GeneratorCall) : Prop where
  /-- a handle can be used exactly if it was issued and has not been used -/
  patches : ∀ jump, (ofCalls calls).answer (.patchHere jump) = .patched ↔ Outstanding calls jump
  /-- a jump goes to the instruction that was next when its handle was used, and that is behind the
  jump -/
  targets : ∀ before call middle jump rest,
    calls = before ++ call :: (middle ++ .patchHere jump :: rest) →
    (ofCalls before).answer call = .handle jump → .patchHere jump ∉ middle →
    ∃ op condition, call.forwardJump? = some (op, condition) ∧
      jump.index = (ofCalls before).nextIndex ∧
      (ofCalls calls).builder.quads[jump.index]? =
        some (.jump op condition (.line (ofCalls (before ++ call :: middle)).nextIndex)) ∧
      jump.index < (ofCalls (before ++ call :: middle)).nextIndex ∧
      (ofCalls (before ++ call :: middle)).nextIndex ≤ (ofCalls calls).nextIndex
  /-- the program can be had when every handle has been used -/
  finishes : (∀ jump, ¬Outstanding calls jump) →
    (ofCalls calls).finish = .ok ⟨(ofCalls calls).builder.quads⟩
  /-- until then, the jumps of the handles that are left are named, in order -/
  unfinished : (∃ jump, Outstanding calls jump) →
    ∃ jumps, (ofCalls calls).finish = .error jumps ∧ jumps.indices.Pairwise (· < ·) ∧
      ∀ k, k ∈ jumps.indices ↔ ∃ jump, Outstanding calls jump ∧ jump.index = k
  /-- temporaries are given out one after the other, to the calls that draw one and to no others -/
  temporaries : ∀ before call rest, calls = before ++ call :: rest →
    ((ofCalls before).answer call).temp? = if call.draws then some (draws before + 1) else none

/-- **Whatever the caller does with them, handles and temporaries are sound.** -/
theorem reliable_for_any_caller (calls : List GeneratorCall) (h : draws calls < tempLimit) :
    ReliableAfter calls where
  patches jump := patched_iff
  targets before call middle jump rest heq hanswer hunused := by
    subst heq
    exact target_of_patchHere hanswer hunused rest
  finishes := finish_of_none_outstanding
  unfinished := finish_of_outstanding
  temporaries before call rest heq := by
    rw [heq, List.append_cons] at h
    exact temp?_answer (Nat.lt_of_le_of_lt (draws_le_append _ rest) h)

/-- Two jumps that cross each other, a third that is left, and operands that look like holes. -/
def tangled : List GeneratorCall :=
  [.jump, .compare ⟨.lt, rfl⟩ ⟨.target (.pending 0), .integer⟩ ⟨.var "a", .real⟩, .jumpIfFalse ⟨1⟩,
    .store "a" ⟨.target (.pending 2), .integer⟩, .patchHere ⟨0, 0⟩, .jump,
    .negate ⟨.var "a", .real⟩, .patchHere ⟨2, 1⟩, .halt]

theorem reliable_for_tangled_caller :
    draws tangled < tempLimit ∧ ReliableAfter tangled ∧ (ofCalls tangled).finish = .error ⟨[4]⟩ ∧
      Outstanding tangled ⟨4, 2⟩ := by
  have hdraws : draws tangled < tempLimit := by decide +kernel
  have hfinish : (ofCalls tangled).finish = .error ⟨[4]⟩ := rfl
  have hreliable := reliable_for_any_caller tangled hdraws
  exact ⟨hdraws, hreliable, hfinish, (hreliable.patches ⟨4, 2⟩).mp rfl⟩

end Generator

end ThreeAddress
