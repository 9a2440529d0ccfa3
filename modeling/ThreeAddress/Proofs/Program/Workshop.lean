import ThreeAddress.Proofs.Program.Holes

/-!
# Builders at work side by side

Nothing ties a handle to the builder that issued it. Whoever has several builders can take a handle
of one to another, and can lose a handle by using it in vain. A `Workshop` is that situation: some
builders, and the handles that were issued and not used yet. Any calls in any order make a run of
it.

What one call does to the workshop is said once (`Workshop.perform_cases`), and what it does to the
builder that is called is `Builder.Follows`. Since every builder keeps its books under every call
(`Builder.Balanced.after`), all of them do in every run (`Workshop.Balanced.run`), whichever handle
goes where.
-/

namespace ThreeAddress

/-! ## 1. Calls -/

/-- A handle, and the builder that issued it. -/
structure Handle where
  issuer : Nat
  jump : PendingJump
deriving Repr, DecidableEq

/-- A call on a builder. -/
inductive BuilderCall where
  | emit (quad : Quad)
  | emitJump (op : Operator) (condition : Option Operand)
  | emitJumpTo (op : Operator) (condition : Option Operand) (target : Nat)
  | patch (handle : Handle) (target : Nat)
  | finish
deriving Repr, DecidableEq

namespace BuilderCall

/-- Whether the call brings in an instruction with a hole that no builder has given out. -/
def isRaw : BuilderCall → Bool
  | emit quad => quad.isPending
  | _ => false

/-- Whether the call is for an instruction. -/
def isEmission : BuilderCall → Bool
  | emit _ | emitJump _ _ | emitJumpTo _ _ _ => true
  | patch _ _ | finish => false

end BuilderCall

namespace Builder

/-- The builder after a call; a builder that has finished is gone. -/
def after (b : Builder) : BuilderCall → Option Builder
  | .emit quad => some (b.emit quad).next
  | .emitJump op condition => some (b.emitJump op condition).next
  | .emitJumpTo op condition target => some (b.emitJumpTo op condition target).next
  | .patch handle target => some (b.patch handle.jump target).next
  | .finish => none

/-- The instructions that a call appends. -/
def appends (b : Builder) : BuilderCall → List Quad
  | .emit quad => [quad]
  | .emitJump op condition =>
    if op.isJump then [.jump op condition (.pending b.nextHole)] else []
  | .emitJumpTo op condition target =>
    if op.isJump then [.jump op condition (.line target)] else []
  | .patch _ _ | .finish => []

end Builder

/-- Builders at work, and the handles that were issued and not used. -/
structure Workshop where
  builders : List (Option Builder)
  handles : List Handle := []
deriving Repr, DecidableEq

namespace Workshop

/-- A number of new builders. -/
def fresh (n : Nat) : Workshop where
  builders := List.replicate n (some {})

/-- A builder that has not finished. -/
def builder? (w : Workshop) (i : Nat) : Option Builder :=
  w.builders[i]?.join

/-- Only a handle that somebody has can be used. -/
def allows (w : Workshop) : BuilderCall → Bool
  | .patch handle _ => w.handles.contains handle
  | _ => true

/-- The handles after a call on the builder `b`, which is the one at `i`. A patch uses its handle
up, whatever comes of it. -/
def handlesAfter (w : Workshop) (i : Nat) (b : Builder) : BuilderCall → List Handle
  | .emitJump op condition =>
    match (b.emitJump op condition).answer with
    | .ok jump => ⟨i, jump⟩ :: w.handles
    | .error _ => w.handles
  | .patch handle _ => w.handles.erase handle
  | _ => w.handles

/-- A call on the builder at `i`, if it can be made. -/
def perform (w : Workshop) (i : Nat) (call : BuilderCall) : Option Workshop :=
  match w.builder? i with
  | none => none
  | some b =>
    if w.allows call then
      some ⟨w.builders.set i (b.after call), w.handlesAfter i b call⟩
    else none

/-- Calls one after the other, each on some builder. -/
def run (w : Workshop) : List (Nat × BuilderCall) → Option Workshop
  | [] => some w
  | (i, call) :: calls => (w.perform i call).bind (·.run calls)

/-! ## 2. What a call does -/

variable {w w' : Workshop} {i j : Nat} {b : Builder} {call : BuilderCall}

theorem builder?_fresh {n : Nat} (h : (fresh n).builder? i = some b) : b = {} := by
  rw [builder?, Option.join_eq_some_iff] at h
  exact Option.some.inj (List.eq_of_mem_replicate (List.mem_of_getElem? h))

theorem lt_of_builder? (h : w.builder? i = some b) : i < w.builders.length := by
  rw [builder?, Option.join_eq_some_iff] at h
  exact (List.getElem?_eq_some_iff.mp h).1

/-- **What a call does to a workshop**: it changes the builder that is called, and no other. -/
theorem perform_cases (h : w.perform i call = some w') :
    ∃ b, w.builder? i = some b ∧ w.allows call = true ∧ w'.builder? i = b.after call ∧
      (∀ j, j ≠ i → w'.builder? j = w.builder? j) ∧ w'.handles = w.handlesAfter i b call ∧
      w'.builders.length = w.builders.length := by
  unfold perform at h
  cases hb : w.builder? i with
  | none =>
    rw [hb] at h
    cases h
  | some b =>
    rw [hb] at h
    dsimp only at h
    split at h
    · rename_i hallows
      cases h
      refine ⟨b, rfl, hallows, ?_, ?_, rfl, List.length_set ..⟩
      · simp [builder?, lt_of_builder? hb]
      · intro j hne
        simp [builder?, List.getElem?_set_ne hne.symm]
    · cases h

theorem run_cons {calls : List (Nat × BuilderCall)} (h : w.run ((i, call) :: calls) = some w') :
    ∃ w₁, w.perform i call = some w₁ ∧ w₁.run calls = some w' :=
  Option.bind_eq_some_iff.mp h

end Workshop

namespace Builder

variable {b b' : Builder} {call : BuilderCall}

/-- How a builder may go on after a call: an instruction is appended, one slot is filled, a patch is
refused and changes nothing, or the builder is gone. -/
inductive Follows (b : Builder) : BuilderCall → Option Builder → Prop
  | appended {call : BuilderCall} {b' : Builder} (emission : call.isEmission = true)
      (quads : b'.quads.toList = b.quads.toList ++ b.appends call) : Follows b call (some b')
  | filled {handle : Handle} {target : Nat} {before after : List Quad} {q : Quad} {b' : Builder}
      (answer : (b.patch handle.jump target).answer = .ok ())
      (was : b.quads.toList = before ++ q :: after) (waited : q.isPending = true)
      (inRange : target ≤ b.quads.size)
      (isNow : b'.quads.toList =
        before ++ { q with result := some (.target (.line target)) } :: after) :
      Follows b (.patch handle target) (some b')
  | refused {handle : Handle} {target : Nat} {error : PatchError}
      (answer : (b.patch handle.jump target).answer = .error (.refused error)) :
      Follows b (.patch handle target) (some b)
  | gone : Follows b .finish none

theorem quads_emitJump (b : Builder) (op : Operator) (condition : Option Operand) :
    (b.emitJump op condition).next.quads.toList =
      b.quads.toList ++ b.appends (.emitJump op condition) := by
  cases hop : op.isJump with
  | true => simp [emitJump_of_isJump hop, appends, hop]
  | false => simp [emitJump_of_not_isJump hop, appends, hop]

theorem quads_emitJumpTo (b : Builder) (op : Operator) (condition : Option Operand) (target : Nat) :
    (b.emitJumpTo op condition target).next.quads.toList =
      b.quads.toList ++ b.appends (.emitJumpTo op condition target) := by
  cases hop : op.isJump with
  | true => simp [emitJumpTo_of_isJump hop, appends, hop]
  | false => simp [emitJumpTo_of_not_isJump hop, appends, hop]

theorem Balanced.follows (h : b.Balanced) (call : BuilderCall) : b.Follows call (b.after call) := by
  cases call with
  | emit quad => exact .appended rfl (b.quads_emit quad)
  | emitJump op condition => exact .appended rfl (b.quads_emitJump op condition)
  | emitJumpTo op condition target => exact .appended rfl (b.quads_emitJumpTo op condition target)
  | finish => exact .gone
  | patch handle target =>
    show b.Follows _ (some (b.patch handle.jump target).next)
    rcases b.patch_cases handle.jump target with ⟨error, heq⟩ |
      ⟨before, q, after, hwaits, hle, hpatch⟩
    · have hanswer : (b.patch handle.jump target).answer = .error (.refused error) := by rw [heq]
      rw [heq]
      exact .refused hanswer
    · rcases hpatch with ⟨hzero, -⟩ | ⟨pending, -, heq⟩
      · exact absurd hzero (h.pending_ne_zero hwaits)
      · have hanswer : (b.patch handle.jump target).answer = .ok () := by rw [heq]
        rw [heq]
        exact .filled hanswer hwaits.quads (Quad.isPending_iff.mpr ⟨_, hwaits.hole⟩) hle rfl

/-- No call but one with a hole of its own unbalances a builder. -/
theorem Balanced.after (h : b.Balanced) (hclean : call.isRaw = false)
    (hb' : b.after call = some b') : b'.Balanced := by
  cases call with
  | emit quad =>
    cases hb'
    refine h.emit quad ?_
    rw [← Option.not_isSome_iff_eq_none, ← quad.isPending_eq_isSome]
    exact Bool.not_eq_true _ ▸ hclean
  | emitJump op condition =>
    cases hb'
    exact h.emitJump
  | emitJumpTo op condition target =>
    cases hb'
    exact h.emitJumpTo
  | patch handle target =>
    cases hb'
    exact h.patch
  | finish => cases hb'

end Builder

/-! ## 3. Runs -/

namespace Workshop

variable {w w' : Workshop} {i : Nat} {b : Builder} {call : BuilderCall}

/-- Every builder keeps its books. -/
def Balanced (w : Workshop) : Prop :=
  ∀ i b, w.builder? i = some b → b.Balanced

theorem balanced_fresh (n : Nat) : (fresh n).Balanced := by
  intro i b hb
  rw [builder?_fresh hb]
  exact Builder.balanced_new

theorem Balanced.perform (h : w.Balanced) (hclean : call.isRaw = false)
    (hw' : w.perform i call = some w') : w'.Balanced := by
  obtain ⟨b, hb, -, hcalled, hothers, -⟩ := perform_cases hw'
  intro j b' hb'
  by_cases hj : j = i
  · subst hj
    rw [hcalled] at hb'
    exact (h j b hb).after hclean hb'
  · rw [hothers j hj] at hb'
    exact h j b' hb'

theorem Balanced.run (h : w.Balanced) {calls : List (Nat × BuilderCall)}
    (hclean : ∀ call ∈ calls, call.2.isRaw = false) (hw' : w.run calls = some w') :
    w'.Balanced := by
  induction calls generalizing w with
  | nil =>
    cases hw'
    exact h
  | cons call calls ih =>
    obtain ⟨i, call⟩ := call
    obtain ⟨w₁, hperform, hrun⟩ := run_cons hw'
    rw [List.forall_mem_cons] at hclean
    exact ih (h.perform hclean.1 hperform) hclean.2 hrun

/-- **Builders keep their books under any interleaving of calls**, whichever handle goes to which of
them. The count of each is the number of its instructions that wait for a target, and their holes
have different numbers. The next call only appends, except for a patch, which fills one slot or is
refused and changes nothing; it never runs the count below zero. And a builder finishes exactly if
nothing waits. -/
theorem keeps_books {n : Nat} {calls : List (Nat × BuilderCall)} {w : Workshop}
    (hrun : (fresh n).run calls = some w) (hclean : ∀ call ∈ calls, call.2.isRaw = false)
    {i : Nat} {b : Builder} (hb : w.builder? i = some b) :
    b.pending = b.quads.toList.countP Quad.isPending ∧ b.holes.Nodup ∧
    (∀ j call w', w.perform j call = some w' →
      if i = j then b.Follows call (w'.builder? i) else w'.builder? i = some b) ∧
    ((∀ q ∈ b.quads.toList, q.isPending = false) → b.finish = .ok ⟨b.quads⟩) ∧
    ((∃ q ∈ b.quads.toList, q.isPending = true) → ∃ jumps, b.finish = .error jumps ∧
      jumps.indices.Pairwise (· < ·) ∧
      ∀ k, k ∈ jumps.indices ↔ ∃ q, b.quads[k]? = some q ∧ q.isPending = true) := by
  have hbalanced : b.Balanced := (balanced_fresh n).run hclean hrun i b hb
  refine ⟨by rw [hbalanced.count, Builder.holes, length_holesIn], hbalanced.distinct, ?_,
    hbalanced.finish.1, ?_⟩
  · intro j call w' hperform
    obtain ⟨b', hb', -, hcalled, hothers, -⟩ := perform_cases hperform
    split
    · rename_i hij
      subst hij
      rw [hb] at hb'
      cases hb'
      rw [hcalled]
      exact hbalanced.follows call
    · rename_i hij
      rw [hothers i hij]
      exact hb
  · intro hwaiting
    exact ⟨_, hbalanced.finish.2 hwaiting, b.pairwise_pendingIndices,
      fun _ => Builder.mem_pendingIndices_iff⟩

/-- Two builders: the second fills a hole with a handle of the first, and the first is left with a
jump that nobody can patch. -/
def swapped : List (Nat × BuilderCall) :=
  [(0, .emitJump .jump none), (1, .emitJump .jumpIfFalse (some (.temp 1))),
    (1, .patch ⟨0, ⟨0, 0⟩⟩ 1), (0, .emit { op := .halt }), (0, .patch ⟨1, ⟨0, 0⟩⟩ 5)]

/-- The hole of the second builder is filled, so it can finish its program; the first one cannot. -/
theorem keeps_books_swapped :
    (∀ call ∈ swapped, call.2.isRaw = false) ∧
    (∃ w b w' b', (fresh 2).run (swapped.take 2) = some w ∧ w.builder? 1 = some b ∧
      w.perform 1 (.patch ⟨0, ⟨0, 0⟩⟩ 1) = some w' ∧ w'.builder? 1 = some b' ∧
      (b.patch ⟨0, 0⟩ 1).answer = .ok () ∧ b.Follows (.patch ⟨0, ⟨0, 0⟩⟩ 1) (some b')) ∧
    ∃ w b₀ b₁, (fresh 2).run swapped = some w ∧ w.builder? 0 = some b₀ ∧ w.builder? 1 = some b₁ ∧
      b₀.pending = 1 ∧ b₀.quads.toList.countP Quad.isPending = 1 ∧
      (∃ jumps, b₀.finish = .error jumps ∧ jumps.indices.Pairwise (· < ·) ∧
        ∀ k, k ∈ jumps.indices ↔ ∃ q, b₀.quads[k]? = some q ∧ q.isPending = true) ∧
      b₁.pending = 0 ∧ b₁.quads.toList.countP Quad.isPending = 0 ∧
      b₁.quads[0]?.bind Quad.target? = some 1 ∧ b₁.finish = .ok ⟨b₁.quads⟩ := by
  have hclean : ∀ call ∈ swapped, call.2.isRaw = false := by decide
  have hbegun : ∀ call ∈ swapped.take 2, call.2.isRaw = false :=
    fun call hcall => hclean call (List.mem_of_mem_take hcall)
  obtain ⟨-, -, hfollows, -⟩ := keeps_books (n := 2) (i := 1) rfl hbegun rfl
  have hfilled := hfollows 1 (.patch ⟨0, ⟨0, 0⟩⟩ 1) _ rfl
  rw [if_pos rfl] at hfilled
  obtain ⟨hfirst, -, -, -, hwaits⟩ := keeps_books (n := 2) (i := 0) rfl hclean rfl
  obtain ⟨hsecond, -, -, hfinishes, -⟩ := keeps_books (n := 2) (i := 1) rfl hclean rfl
  exact ⟨hclean, ⟨_, _, _, _, rfl, rfl, rfl, rfl, rfl, hfilled⟩,
    _, _, _, rfl, rfl, rfl, rfl, hfirst.symm, hwaits (by decide), rfl, hsecond.symm, rfl,
    hfinishes (by decide)⟩

end Workshop

end ThreeAddress
