import ThreeAddress.Program.Builder

/-!
# The holes of a program in the making

A jump that waits for its target has a hole in its result slot. A builder says three times which
holes there are: in the slots themselves, in its count of them, and in the numbers that it gives
out. Its calls change the three at different places. This module says for each call what happens to
the slots (`holes_emit`, `holes_emitJump`, `patch_cases`), and what it takes for the three to agree
(`Builder.Balanced`).

Patching is the one call that changes an instruction. `patch_cases` says all that it can do: refuse
and leave the builder alone, or fill one slot, and then the count goes down by one if it can.
-/

namespace ThreeAddress

/-! ## 1. Slots -/

/-- The number of the hole in the result slot, if there is one. -/
def Quad.hole? (q : Quad) : Option Nat :=
  match q.result with
  | some (.target (.pending hole)) => some hole
  | _ => none

/-- The instruction with a known target in its result slot. -/
def Quad.aimed (q : Quad) (target : Nat) : Quad :=
  { q with result := some (.target (.line target)) }

namespace Quad

variable {q : Quad} {hole : Nat}

theorem hole?_eq_some_iff : q.hole? = some hole ↔ q.result = some (.target (.pending hole)) := by
  unfold hole?
  split
  · rename_i h
    simp [h]
  · rename_i h
    refine iff_of_false (by simp) ?_
    intro hresult
    exact h hole hresult

theorem isPending_iff : q.isPending = true ↔ ∃ hole, q.result = some (.target (.pending hole)) := by
  obtain ⟨op, arg1, arg2, result⟩ := q
  unfold isPending Operand.isPending
  rcases result with _ | _ | _ | _ | _ | _ <;> simp

theorem isPending_eq_isSome (q : Quad) : q.isPending = q.hole?.isSome := by
  rw [Bool.eq_iff_iff, isPending_iff, Option.isSome_iff_exists]
  simp only [hole?_eq_some_iff]

@[simp] theorem hole?_aimed (q : Quad) (target : Nat) : (q.aimed target).hole? = none :=
  rfl

@[simp] theorem hole?_jump_pending (op : Operator) (condition : Option Operand) (hole : Nat) :
    (Quad.jump op condition (.pending hole)).hole? = some hole :=
  rfl

@[simp] theorem hole?_jump_line (op : Operator) (condition : Option Operand) (target : Nat) :
    (Quad.jump op condition (.line target)).hole? = none :=
  rfl

end Quad

/-- The numbers of the holes among some instructions, in order. -/
def holesIn (quads : List Quad) : List Nat :=
  quads.filterMap Quad.hole?

@[simp] theorem holesIn_append (quads quads' : List Quad) :
    holesIn (quads ++ quads') = holesIn quads ++ holesIn quads' :=
  List.filterMap_append ..

@[simp] theorem holesIn_cons (q : Quad) (quads : List Quad) :
    holesIn (q :: quads) = q.hole?.toList ++ holesIn quads := by
  unfold holesIn
  cases h : q.hole? <;> simp [h]

@[simp] theorem holesIn_nil : holesIn [] = [] :=
  rfl

theorem length_holesIn (quads : List Quad) :
    (holesIn quads).length = quads.countP Quad.isPending := by
  induction quads with
  | nil => rfl
  | cons q quads ih =>
    rw [holesIn_cons, List.length_append, List.countP_cons, ih, q.isPending_eq_isSome, Nat.add_comm]
    cases q.hole? <;> rfl

/-! ## 2. What the calls do -/

namespace Builder

variable {b : Builder} {op : Operator} {condition : Option Operand} {jump : PendingJump}
  {target : Nat}

/-- The numbers of the holes of a builder. -/
def holes (b : Builder) : List Nat :=
  holesIn b.quads.toList

theorem quads_emit (b : Builder) (quad : Quad) :
    (b.emit quad).next.quads.toList = b.quads.toList ++ [quad] := by
  simp [emit]

theorem holes_emit (b : Builder) (quad : Quad) :
    (b.emit quad).next.holes = b.holes ++ quad.hole?.toList := by
  rw [holes, quads_emit, holesIn_append, holesIn_cons, holesIn_nil, List.append_nil, holes]

theorem emitJump_of_isJump (h : op.isJump = true) :
    b.emitJump op condition =
      ⟨.ok ⟨b.nextIndex, b.nextHole⟩,
        { quads := b.quads.push (.jump op condition (.pending b.nextHole)),
          pending := b.pending + 1, nextHole := b.nextHole + 1 },
        [.emitted b.nextIndex (.jump op condition (.pending b.nextHole))]⟩ := by
  simp [emitJump, h, emit, nextIndex]

theorem holes_emitJump (b : Builder) (condition : Option Operand) (h : op.isJump = true) :
    (b.emitJump op condition).next.holes = b.holes ++ [b.nextHole] := by
  rw [emitJump_of_isJump h]
  simp [holes]

theorem emitJump_of_not_isJump (h : op.isJump = false) :
    b.emitJump op condition = ⟨.error (.notAJump op), b, []⟩ := by
  simp [emitJump, h]

theorem emitJumpTo_of_isJump (h : op.isJump = true) :
    b.emitJumpTo op condition target =
      ⟨.ok b.nextIndex, { b with quads := b.quads.push (.jump op condition (.line target)) },
        [.emitted b.nextIndex (.jump op condition (.line target))]⟩ := by
  simp [emitJumpTo, h, emit]

theorem emitJumpTo_of_not_isJump (h : op.isJump = false) :
    b.emitJumpTo op condition target = ⟨.error (.notAJump op), b, []⟩ := by
  simp [emitJumpTo, h]

/-- The builder has the hole of the handle at the index of the handle. -/
structure Waits (b : Builder) (jump : PendingJump) (before : List Quad) (q : Quad)
    (after : List Quad) : Prop where
  quads : b.quads.toList = before ++ q :: after
  index : before.length = jump.index
  hole : q.result = some (.target (.pending jump.hole))

theorem waits_of_getElem? {q : Quad} (hget : b.quads[jump.index]? = some q)
    (hhole : q.result = some (.target (.pending jump.hole))) :
    b.Waits jump (b.quads.toList.take jump.index) q (b.quads.toList.drop (jump.index + 1)) := by
  rw [← Array.getElem?_toList] at hget
  obtain ⟨hlt, rfl⟩ := List.getElem?_eq_some_iff.mp hget
  refine ⟨?_, List.length_take_of_le (Nat.le_of_lt hlt), hhole⟩
  rw [← List.drop_eq_getElem_cons hlt, List.take_append_drop]

/-- The slot is filled. -/
def fill (b : Builder) (before : List Quad) (q : Quad) (after : List Quad)
    (target : Nat) : Builder :=
  { b with quads := (before ++ q.aimed target :: after).toArray }

theorem Waits.setIfInBounds {before after : List Quad} {q : Quad} (h : b.Waits jump before q after)
    (target : Nat) :
    b.quads.setIfInBounds jump.index (q.aimed target) =
      (before ++ q.aimed target :: after).toArray := by
  apply Array.ext'
  rw [Array.toList_setIfInBounds, h.quads, ← h.index]
  simp

/-- **What patching can do.** The count is the last thing to change, so the slot is filled even if
the count cannot go down. -/
theorem patch_cases (b : Builder) (jump : PendingJump) (target : Nat) :
    (∃ error, b.patch jump target = ⟨.error (.refused error), b, []⟩) ∨
    ∃ before q after, b.Waits jump before q after ∧ target ≤ b.quads.size ∧
      ((b.pending = 0 ∧ b.patch jump target =
        ⟨.error (.fault .subtractionOverflow), b.fill before q after target, []⟩) ∨
      ∃ pending, b.pending = pending + 1 ∧ b.patch jump target =
        ⟨.ok (), { b.fill before q after target with pending }, [.patched jump.index target]⟩) := by
  unfold patch
  by_cases hrange : b.quads.size < target
  · rw [if_pos hrange]
    exact .inl ⟨_, rfl⟩
  rw [if_neg hrange]
  cases hget : b.quads[jump.index]? with
  | none => exact .inl ⟨_, rfl⟩
  | some q =>
    dsimp only
    by_cases hhole : q.result = some (.target (.pending jump.hole))
    · rw [if_pos hhole]
      have hwaits := waits_of_getElem? hget hhole
      refine .inr ⟨_, q, _, hwaits, Nat.le_of_not_lt hrange, ?_⟩
      have hset := hwaits.setIfInBounds target
      unfold Quad.aimed at hset
      unfold fill Quad.aimed
      simp only [hset]
      cases hpending : b.pending with
      | zero => exact .inl ⟨rfl, rfl⟩
      | succ pending => exact .inr ⟨pending, rfl, rfl⟩
    · rw [if_neg hhole]
      exact .inl ⟨_, rfl⟩

theorem Waits.holes {before after : List Quad} {q : Quad} (h : b.Waits jump before q after) :
    b.holes = holesIn before ++ jump.hole :: holesIn after := by
  rw [Builder.holes, h.quads, holesIn_append, holesIn_cons, Quad.hole?_eq_some_iff.mpr h.hole]
  rfl

theorem holes_fill (b : Builder) (before : List Quad) (q : Quad) (after : List Quad)
    (target : Nat) : (b.fill before q after target).holes = holesIn before ++ holesIn after := by
  simp [Builder.holes, fill]

/-! ## 3. A builder that keeps its books -/

/-- The count is the number of holes, and the holes have numbers of their own, which will not be
given out again. -/
structure Balanced (b : Builder) : Prop where
  count : b.pending = b.holes.length
  distinct : b.holes.Nodup
  spent : ∀ hole ∈ b.holes, hole < b.nextHole

theorem balanced_new : ({} : Builder).Balanced where
  count := rfl
  distinct := List.nodup_nil
  spent _ h := absurd h List.not_mem_nil

theorem Balanced.emit (h : b.Balanced) (quad : Quad) (hquad : quad.hole? = none) :
    (b.emit quad).next.Balanced := by
  have hholes := b.holes_emit quad
  rw [hquad, Option.toList_none, List.append_nil] at hholes
  constructor
  · rw [hholes]
    exact h.count
  · rw [hholes]
    exact h.distinct
  · rw [hholes]
    exact h.spent

theorem Balanced.emitJump (h : b.Balanced) : (b.emitJump op condition).next.Balanced := by
  cases hop : op.isJump with
  | false => rwa [emitJump_of_not_isJump hop]
  | true =>
    have hholes := b.holes_emitJump condition hop
    rw [emitJump_of_isJump hop] at hholes ⊢
    constructor
    · rw [hholes, List.length_append, ← h.count]
      rfl
    · -- all numbers so far are smaller than the new one
      rw [hholes, List.nodup_append]
      refine ⟨h.distinct, by simp, ?_⟩
      intro hole hmem other hother heq
      rw [List.mem_singleton] at hother
      have hlt := h.spent hole hmem
      omega
    · intro hole hmem
      rw [hholes, List.mem_append, List.mem_singleton] at hmem
      show hole < b.nextHole + 1
      rcases hmem with hmem | rfl
      · exact Nat.lt_succ_of_lt (h.spent hole hmem)
      · exact Nat.lt_succ_self _

theorem Balanced.emitJumpTo (h : b.Balanced) :
    (b.emitJumpTo op condition target).next.Balanced := by
  cases hop : op.isJump with
  | false => rwa [emitJumpTo_of_not_isJump hop]
  | true =>
    rw [emitJumpTo_of_isJump hop]
    exact h.emit (.jump op condition (.line target)) rfl

/-- A hole that is there has been counted. -/
theorem Balanced.pending_ne_zero (h : b.Balanced) {before after : List Quad} {q : Quad}
    (hwaits : b.Waits jump before q after) : b.pending ≠ 0 := by
  intro hzero
  have hcount := h.count
  rw [hzero, hwaits.holes, List.length_append, List.length_cons] at hcount
  omega

theorem Balanced.fill (h : b.Balanced) {before after : List Quad} {q : Quad} {pending : Nat}
    (hwaits : b.Waits jump before q after) (hpending : b.pending = pending + 1) :
    { b.fill before q after target with pending }.Balanced := by
  have hholes : { b.fill before q after target with pending }.holes =
      holesIn before ++ holesIn after := b.holes_fill before q after target
  have hsub : (holesIn before ++ holesIn after).Sublist b.holes := by
    rw [hwaits.holes]
    exact (List.Sublist.refl _).append (List.sublist_cons_self ..)
  constructor
  · have hcount := h.count
    rw [hpending, hwaits.holes, List.length_append, List.length_cons] at hcount
    rw [hholes, List.length_append]
    show pending = _
    omega
  · rw [hholes]
    exact hsub.nodup h.distinct
  · intro hole hmem
    rw [hholes] at hmem
    exact h.spent hole (hsub.subset hmem)

theorem Balanced.patch (h : b.Balanced) : (b.patch jump target).next.Balanced := by
  rcases b.patch_cases jump target with ⟨error, heq⟩ | ⟨before, q, after, hwaits, -, hpatch⟩
  · rwa [heq]
  · rcases hpatch with ⟨hzero, -⟩ | ⟨pending, hpending, heq⟩
    · exact absurd hzero (h.pending_ne_zero hwaits)
    · rw [heq]
      exact h.fill hwaits hpending

/-! ## 4. Finishing -/

theorem mem_pendingIndices_iff {k : Nat} :
    k ∈ b.pendingIndices ↔ ∃ q, b.quads[k]? = some q ∧ q.isPending = true := by
  unfold pendingIndices
  simp only [List.mem_map, List.mem_filter, Prod.exists, exists_eq_right,
    List.mem_zipIdx_iff_getElem?, Array.getElem?_toList]

theorem pairwise_pendingIndices (b : Builder) : b.pendingIndices.Pairwise (· < ·) := by
  have hsub : b.pendingIndices.Sublist (b.quads.toList.zipIdx.map Prod.snd) :=
    List.filter_sublist.map _
  rw [List.zipIdx_map_snd] at hsub
  exact List.Pairwise.sublist hsub List.pairwise_lt_range'

/-- **A builder that keeps its books finishes exactly if no instruction has a hole**, and otherwise
it names those that have one. -/
theorem Balanced.finish (h : b.Balanced) :
    ((∀ q ∈ b.quads.toList, q.isPending = false) → b.finish = .ok ⟨b.quads⟩) ∧
    ((∃ q ∈ b.quads.toList, q.isPending = true) → b.finish = .error ⟨b.pendingIndices⟩) := by
  have hcount : b.pending = b.quads.toList.countP Quad.isPending := by
    rw [h.count, holes, length_holesIn]
  unfold Builder.finish
  constructor
  · intro hnone
    have hzero : b.pending = 0 := by
      rw [hcount, List.countP_eq_zero]
      simpa using hnone
    rw [if_neg (by omega)]
  · intro hsome
    have hpos : 0 < b.pending := by
      rw [hcount]
      exact List.countP_pos_iff.mpr hsome
    rw [if_pos hpos]

end Builder

end ThreeAddress
