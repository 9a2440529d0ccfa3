import ThreeAddress.Proofs.Program.Workshop

/-!
# Holes that are left in finished programs

A builder counts the jumps that it has given a hole, and it finishes when the count is back to zero.
It does not look at the slots. An instruction that comes in with a hole of its own is not counted,
so a finished program may still have a hole (`Workshop.finish_leaves_given_hole`).

The holes that are not counted are those that came in. Each call changes the number of holes and the
count alike, except that such an instruction adds to the holes only (`Builder.account_after`), and
that the count stays at zero when a patch fills a slot that was never counted. So a finished program
has no more holes than came in, and if there is only one builder it has exactly those: then every
handle stands for a hole that was counted.
-/

namespace ThreeAddress

namespace Builder

variable {b b' : Builder} {call : BuilderCall}

/-- The count and the holes change alike, unless the count would run below zero. -/
theorem account_after (hb' : b.after call = some b') :
    b'.holes.length + b.pending = b.holes.length + b'.pending + call.isRaw.toNat ∨
    (b.pending = 0 ∧ b'.pending = 0 ∧ b'.holes.length ≤ b.holes.length ∧
      ∃ handle target, call = .patch handle target) := by
  cases call with
  | emit quad =>
    cases hb'
    left
    rw [holes_emit, List.length_append, BuilderCall.isRaw, quad.isPending_eq_isSome]
    show _ + b.pending = b.holes.length + b.pending + _
    cases quad.hole? with
    | none => simp
    | some hole =>
      simp only [Option.toList_some, List.length_singleton, Option.isSome_some, Bool.toNat_true]
      omega
  | emitJump op condition =>
    cases hb'
    left
    cases hop : op.isJump with
    | false =>
      rw [emitJump_of_not_isJump hop]
      rfl
    | true =>
      rw [b.holes_emitJump condition hop, emitJump_of_isJump hop, List.length_append]
      show _ + 1 + b.pending = _ + (b.pending + 1) + 0
      omega
  | emitJumpTo op condition target =>
    cases hb'
    left
    cases hop : op.isJump with
    | false =>
      rw [emitJumpTo_of_not_isJump hop]
      rfl
    | true =>
      have hholes := b.holes_emit (.jump op condition (.line target))
      rw [Quad.hole?_jump_line, Option.toList_none, List.append_nil] at hholes
      rw [emitJumpTo_of_isJump hop]
      exact congrArg (List.length · + b.pending) hholes
  | finish => cases hb'
  | patch handle target =>
    cases hb'
    rcases b.patch_cases handle.jump target with ⟨error, heq⟩ |
      ⟨before, q, after, hwaits, -, hpatch⟩
    · left
      rw [heq]
      rfl
    · have hbefore : b.holes.length = (b.fill before q after target).holes.length + 1 := by
        rw [hwaits.holes, holes_fill, List.length_append, List.length_append, List.length_cons]
        omega
      rcases hpatch with ⟨hzero, heq⟩ | ⟨pending, hpending, heq⟩
      · right
        rw [heq]
        have hle : (b.fill before q after target).holes.length ≤ b.holes.length := by omega
        exact ⟨hzero, hzero, hle, handle, target, rfl⟩
      · left
        rw [heq, hbefore, hpending]
        show _ + (pending + 1) = _ + 1 + pending + 0
        have hsame : { b.fill before q after target with pending }.holes =
            (b.fill before q after target).holes := rfl
        rw [hsame]
        omega

end Builder

namespace Workshop

variable {w w' : Workshop} {i : Nat} {b : Builder} {call : BuilderCall}
  {calls : List (Nat × BuilderCall)}

/-- How many instructions with a hole of their own the calls bring to the builder at `i`. -/
def rawEmissions (i : Nat) (calls : List (Nat × BuilderCall)) : Nat :=
  calls.countP fun call => call.1 = i ∧ call.2.isRaw

theorem rawEmissions_cons (i j : Nat) (call : BuilderCall) (calls : List (Nat × BuilderCall)) :
    rawEmissions i ((j, call) :: calls) =
      rawEmissions i calls + if j = i ∧ call.isRaw = true then 1 else 0 := by
  unfold rawEmissions
  rw [List.countP_cons]
  simp

/-! ## 1. Any number of builders -/

/-- All but a given number of the holes of each builder are counted. -/
def Covered (w : Workshop) (given : Nat → Nat) : Prop :=
  ∀ i b, w.builder? i = some b → b.holes.length ≤ b.pending + given i

theorem covered_fresh (n : Nat) : (fresh n).Covered fun _ => 0 := by
  intro i b hb
  rw [builder?_fresh hb]
  exact Nat.le_refl 0

theorem Covered.perform {given : Nat → Nat} (h : w.Covered given)
    (hw' : w.perform i call = some w') :
    w'.Covered fun j => given j + if i = j ∧ call.isRaw = true then 1 else 0 := by
  obtain ⟨b, hb, -, hcalled, hothers, -⟩ := perform_cases hw'
  intro j b' hb'
  by_cases hj : j = i
  · subst hj
    rw [hcalled] at hb'
    have hle := h j b hb
    have haccount := Builder.account_after hb'
    dsimp only
    cases hraw : call.isRaw with
    | true =>
      rw [if_pos ⟨rfl, rfl⟩]
      rw [hraw, Bool.toNat_true] at haccount
      omega
    | false =>
      rw [if_neg (by simp)]
      rw [hraw, Bool.toNat_false] at haccount
      omega
  · rw [hothers j hj] at hb'
    have hle := h j b' hb'
    dsimp only
    omega

theorem Covered.run {given : Nat → Nat} (h : w.Covered given) (hw' : w.run calls = some w') :
    w'.Covered fun j => given j + rawEmissions j calls := by
  induction calls generalizing w given with
  | nil =>
    cases hw'
    exact h
  | cons call calls ih =>
    obtain ⟨i, call⟩ := call
    obtain ⟨w₁, hperform, hrun⟩ := run_cons hw'
    intro j b hb
    have hle := ih (h.perform hperform) hrun j b hb
    dsimp only at hle ⊢
    rw [rawEmissions_cons]
    omega

/-! ## 2. A single builder -/

/-- There is one builder. Every handle stands for a hole that was counted, and all but a given
number of the holes were. -/
structure Alone (w : Workshop) (given : Nat) : Prop where
  one : w.builders.length = 1
  handles : ∀ b, w.builder? 0 = some b → w.handles.length ≤ b.pending
  holes : ∀ b, w.builder? 0 = some b → b.holes.length = b.pending + given

theorem alone_fresh : (fresh 1).Alone 0 where
  one := rfl
  handles b hb := Nat.zero_le _
  holes b hb := by
    rw [builder?_fresh hb]
    rfl

theorem length_handlesAfter_emitJump (w : Workshop) (i : Nat) (b : Builder) (op : Operator)
    (condition : Option Operand) (h : w.handles.length ≤ b.pending) :
    (w.handlesAfter i b (.emitJump op condition)).length ≤
      (b.emitJump op condition).next.pending := by
  dsimp only [handlesAfter]
  cases hop : op.isJump with
  | true =>
    rw [Builder.emitJump_of_isJump hop]
    exact Nat.succ_le_succ h
  | false =>
    rw [Builder.emitJump_of_not_isJump hop]
    exact h

/-- A handle that is used is counted no more. -/
theorem length_handlesAfter_patch {handle : Handle} {target : Nat} (hmem : handle ∈ w.handles)
    (h : w.handles.length ≤ b.pending) :
    (w.handlesAfter i b (.patch handle target)).length ≤
      (b.patch handle.jump target).next.pending := by
  have herase : (w.handlesAfter i b (.patch handle target)).length = w.handles.length - 1 :=
    List.length_erase_of_mem hmem
  rw [herase]
  rcases b.patch_cases handle.jump target with ⟨error, heq⟩ | ⟨before, q, after, -, -, hpatch⟩
  · rw [heq]
    exact Nat.le_trans (Nat.sub_le _ 1) h
  · rcases hpatch with ⟨hzero, heq⟩ | ⟨pending, hpending, heq⟩
    · rw [heq]
      exact Nat.le_trans (Nat.sub_le _ 1) h
    · rw [heq]
      show _ ≤ pending
      omega

theorem Alone.perform {given : Nat} (h : w.Alone given) (hw' : w.perform i call = some w') :
    i = 0 ∧ w'.Alone (given + call.isRaw.toNat) := by
  obtain ⟨b, hb, hallows, hcalled, -, hhandles, hlength⟩ := perform_cases hw'
  have hi : i = 0 := by
    have hlt := lt_of_builder? hb
    rw [h.one] at hlt
    omega
  subst hi
  have hle := h.handles b hb
  refine ⟨rfl, hlength.trans h.one, fun b' hb' => ?_, fun b' hb' => ?_⟩
  · rw [hcalled] at hb'
    rw [hhandles]
    cases call with
    | emit quad =>
      cases hb'
      exact hle
    | emitJump op condition =>
      cases hb'
      exact w.length_handlesAfter_emitJump 0 b op condition hle
    | emitJumpTo op condition target =>
      cases hb'
      cases hop : op.isJump with
      | true =>
        rw [Builder.emitJumpTo_of_isJump hop]
        exact hle
      | false =>
        rw [Builder.emitJumpTo_of_not_isJump hop]
        exact hle
    | patch handle target =>
      cases hb'
      exact length_handlesAfter_patch (List.contains_iff_mem.mp hallows) hle
    | finish => cases hb'
  · rw [hcalled] at hb'
    have hholes := h.holes b hb
    rcases Builder.account_after hb' with haccount | ⟨hzero, -, -, handle, target, rfl⟩
    · omega
    · -- a handle in hand is counted, so the count is not zero
      have hmem : handle ∈ w.handles := List.contains_iff_mem.mp hallows
      have hpos := List.length_pos_of_mem hmem
      omega

theorem Alone.run {given : Nat} (h : w.Alone given) (hw' : w.run calls = some w') :
    w'.Alone (given + rawEmissions 0 calls) := by
  induction calls generalizing w given with
  | nil =>
    cases hw'
    exact h
  | cons call calls ih =>
    obtain ⟨i, call⟩ := call
    obtain ⟨w₁, hperform, hrun⟩ := run_cons hw'
    obtain ⟨rfl, halone⟩ := h.perform hperform
    have hrest := ih halone hrun
    have hsum : given + call.isRaw.toNat + rawEmissions 0 calls =
        given + rawEmissions 0 ((0, call) :: calls) := by
      rw [rawEmissions_cons]
      cases call.isRaw with
      | false => simp
      | true =>
        simp only [Bool.toNat_true, and_self, if_true]
        omega
    rwa [hsum] at hrest

/-! ## 3. Finished programs -/

theorem pending_of_finish {p : Program} (h : b.finish = .ok p) : b.pending = 0 ∧ p = ⟨b.quads⟩ := by
  unfold Builder.finish at h
  split at h
  · cases h
  · cases h
    exact ⟨by omega, rfl⟩

/-- **A finished program has no holes but those that came in with an instruction**, and if there is
only one builder it has all of these. So it has none if none came in. -/
theorem holes_of_finish {n : Nat} (hrun : (fresh n).run calls = some w) (hb : w.builder? i = some b)
    {p : Program} (hfinish : b.finish = .ok p) :
    p.quads.toList.countP Quad.isPending ≤ rawEmissions i calls ∧
    (n = 1 → p.quads.toList.countP Quad.isPending = rawEmissions i calls) ∧
    ((∀ call ∈ calls, call.1 = i → call.2.isRaw = false) →
      ∀ q ∈ p.quads.toList, q.isPending = false) := by
  obtain ⟨hzero, rfl⟩ := pending_of_finish hfinish
  have hle := (covered_fresh n).run hrun i b hb
  dsimp only at hle
  rw [hzero, Builder.holes, length_holesIn, Nat.zero_add, Nat.zero_add] at hle
  refine ⟨hle, ?_, ?_⟩
  · rintro rfl
    have halone := alone_fresh.run hrun
    have hi : i = 0 := by
      have hlt := lt_of_builder? hb
      rw [halone.one] at hlt
      omega
    subst hi
    have hholes := halone.holes b hb
    rwa [hzero, Builder.holes, length_holesIn, Nat.zero_add, Nat.zero_add] at hholes
  · intro hclean
    have hnone : rawEmissions i calls = 0 := by
      unfold rawEmissions
      rw [List.countP_eq_zero]
      intro call hmem hraw
      obtain ⟨hi, hraw⟩ := of_decide_eq_true hraw
      rw [hclean call hmem hi] at hraw
      cases hraw
    rw [hnone, Nat.le_zero, List.countP_eq_zero] at hle
    simpa using hle

/-- One jump that was given a hole and patched, and one that came in with a hole. -/
def mixed : List (Nat × BuilderCall) :=
  [(0, .emitJump .jump none), (0, .emit (.jump .jump none (.pending 0))), (0, .patch ⟨0, ⟨0, 0⟩⟩ 2)]

theorem holes_of_finish_mixed :
    ∃ w b p, (fresh 1).run mixed = some w ∧ w.builder? 0 = some b ∧ b.finish = .ok p ∧
      p.quads.toList.countP Quad.isPending ≤ rawEmissions 0 mixed ∧
      (1 = 1 → p.quads.toList.countP Quad.isPending = rawEmissions 0 mixed) ∧
      ((∀ call ∈ mixed, call.1 = 0 → call.2.isRaw = false) →
        ∀ q ∈ p.quads.toList, q.isPending = false) :=
  ⟨_, _, _, rfl, rfl, rfl, holes_of_finish (n := 1) rfl rfl rfl⟩

/-- A jump with a hole goes in, and comes out in a finished program. -/
theorem finish_leaves_given_hole :
    ∃ w b p, (fresh 1).run [(0, .emit (.jump .jump none (.pending 0)))] = some w ∧
      w.builder? 0 = some b ∧ b.finish = .ok p ∧ ∃ q ∈ p.quads.toList, q.isPending = true :=
  ⟨_, _, _, rfl, rfl, rfl, .jump .jump none (.pending 0), List.mem_singleton.mpr rfl, rfl⟩

end Workshop

end ThreeAddress
