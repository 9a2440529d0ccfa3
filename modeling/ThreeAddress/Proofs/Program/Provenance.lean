import ThreeAddress.Proofs.Program.Workshop

/-!
# The jump that a handle stands for

A handle is the index of a jump and the number of its hole, and every builder counts both from zero.
So two builders may issue the same handle, and either of them takes the handle of the other for its
own (`Workshop.patch_takes_foreign_handle`).

What can be said all the same rests on where things come from. A handle comes from one call in the
history of the workshop (`Workshop.exists_issuedAt`, `Workshop.IssuedAt.unique`), and if no
instruction brings in a hole, then a hole comes from one call too: the one on the same builder that
issued a handle with this index and this number (`Workshop.exists_issuedAt_of_holeAt`). So a patch
resolves the jump of the handle if the builder is the one that issued it. On another builder it is
refused, unless that builder has issued the same handle and still waits for it.
-/

namespace ThreeAddress

/-! ## 1. What a call can give -/

namespace Builder

variable {b b' : Builder} {call : BuilderCall} {op : Operator} {condition : Option Operand}
  {jump : PendingJump} {q : Quad}

/-- The builder has the hole of the handle at the index of the handle, in the jump `q`. -/
def HoleAt (b : Builder) (jump : PendingJump) (q : Quad) : Prop :=
  b.quads[jump.index]? = some q ∧ q.result = some (.target (.pending jump.hole))

/-- The call answers with the handle, and appends the jump `q`. -/
def Issues (b : Builder) (op : Operator) (condition : Option Operand)
    (jump : PendingJump) (q : Quad) : Prop :=
  (b.emitJump op condition).answer = .ok jump ∧
    (b.emitJump op condition).next.quads = b.quads.push q

theorem issues_iff : b.Issues op condition jump q ↔
    op.isJump = true ∧ jump = ⟨b.nextIndex, b.nextHole⟩ ∧
      q = .jump op condition (.pending b.nextHole) := by
  unfold Issues
  cases hop : op.isJump with
  | true => simp [emitJump_of_isJump hop, eq_comm, Array.push_eq_push]
  | false => simp [emitJump_of_not_isJump hop]

theorem Issues.result (h : b.Issues op condition jump q) :
    q.result = some (.target (.pending jump.hole)) := by
  obtain ⟨-, rfl, rfl⟩ := issues_iff.mp h
  rfl

/-- What a call appends has no hole, unless it is the jump of a handle that it issues. -/
theorem exists_issues_of_appends (hclean : call.isRaw = false) {k : Nat}
    (hget : (b.appends call)[k]? = some q) (hjump : jump.index = b.nextIndex + k)
    (hresult : q.result = some (.target (.pending jump.hole))) :
    ∃ op condition, call = .emitJump op condition ∧ b.Issues op condition jump q := by
  cases call with
  | emit quad =>
    have hq : q = quad := by
      have hmem := List.mem_of_getElem? hget
      exact List.mem_singleton.mp hmem
    subst hq
    have hpending : q.isPending = true := Quad.isPending_iff.mpr ⟨_, hresult⟩
    rw [BuilderCall.isRaw, hpending] at hclean
    cases hclean
  | emitJump op condition =>
    cases hop : op.isJump with
    | false => simp [appends, hop] at hget
    | true =>
      rw [appends, if_pos hop, List.getElem?_singleton] at hget
      split at hget
      · rename_i hk
        subst hk
        cases hget
        have hhole := Quad.hole?_eq_some_iff.mpr hresult
        rw [Quad.hole?_jump_pending, Option.some_inj] at hhole
        obtain ⟨index, hole⟩ := jump
        cases hjump
        cases hhole
        exact ⟨op, condition, rfl, issues_iff.mpr ⟨hop, rfl, rfl⟩⟩
      · cases hget
  | emitJumpTo op condition target =>
    cases hop : op.isJump with
    | false => simp [appends, hop] at hget
    | true =>
      rw [appends, if_pos hop] at hget
      rw [List.mem_singleton.mp (List.mem_of_getElem? hget)] at hresult
      cases hresult
  | patch handle target => cases hget
  | finish => cases hget

/-- **A hole that is there after a call was there before**, or it is the one of the handle that the
call issues. -/
theorem HoleAt.of_after (h : b.Balanced) (hclean : call.isRaw = false)
    (hb' : b.after call = some b') (hhole : b'.HoleAt jump q) :
    b.HoleAt jump q ∨ ∃ op condition,
      call = .emitJump op condition ∧ b.Issues op condition jump q := by
  have hfollows := h.follows call
  rw [hb'] at hfollows
  obtain ⟨hget, hresult⟩ := hhole
  rw [← Array.getElem?_toList] at hget
  cases hfollows with
  | appended emission quads =>
    rw [quads] at hget
    rcases Nat.lt_or_ge jump.index b.quads.toList.length with hlt | hge
    · rw [List.getElem?_append_left hlt, Array.getElem?_toList] at hget
      exact .inl ⟨hget, hresult⟩
    · rw [List.getElem?_append_right hge] at hget
      refine .inr (exists_issues_of_appends hclean hget ?_ hresult)
      rw [nextIndex, ← Array.length_toList]
      omega
  | @filled handle target before after filled b' answer was waited inRange isNow =>
    rw [isNow] at hget
    by_cases hindex : jump.index = before.length
    · -- this slot has a target now
      rw [hindex, List.getElem?_append_right (Nat.le_refl _), Nat.sub_self] at hget
      cases hget
      cases hresult
    · have hsame : b.quads.toList[jump.index]? = some q := by
        rw [was, ← hget, List.getElem?_append, List.getElem?_append, List.getElem?_cons,
          List.getElem?_cons]
        split
        · rfl
        · rw [if_neg (by omega), if_neg (by omega)]
      exact .inl ⟨by rwa [← Array.getElem?_toList], hresult⟩
  | refused answer => exact .inl ⟨by rwa [← Array.getElem?_toList], hresult⟩

theorem nextHole_le_after (hb' : b.after call = some b') : b.nextHole ≤ b'.nextHole := by
  cases call with
  | emit quad =>
    cases hb'
    exact Nat.le_refl _
  | emitJump op condition =>
    cases hb'
    cases hop : op.isJump with
    | true => simp [emitJump_of_isJump hop]
    | false => simp [emitJump_of_not_isJump hop]
  | emitJumpTo op condition target =>
    cases hb'
    cases hop : op.isJump with
    | true => simp [emitJumpTo_of_isJump hop]
    | false => simp [emitJumpTo_of_not_isJump hop]
  | patch handle target =>
    cases hb'
    rcases b.patch_cases handle.jump target with ⟨error, heq⟩ | ⟨before, q, after, -, -, hpatch⟩
    · simp [heq]
    · rcases hpatch with ⟨-, heq⟩ | ⟨pending, -, heq⟩
      · simp [heq, fill]
      · simp [heq, fill]
  | finish => cases hb'

theorem Waits.holeAt {before after : List Quad} (h : b.Waits jump before q after) :
    b.HoleAt jump q := by
  refine ⟨?_, h.hole⟩
  rw [← Array.getElem?_toList, h.quads, ← h.index, List.getElem?_append_right (Nat.le_refl _),
    Nat.sub_self]
  rfl

theorem HoleAt.patch (h : b.Balanced) (hhole : b.HoleAt jump q) {target : Nat}
    (hle : target ≤ b.quads.size) : (b.patch jump target).answer = .ok () := by
  have hwaits := waits_of_getElem? hhole.1 hhole.2
  obtain ⟨pending, hpending⟩ := Nat.exists_eq_succ_of_ne_zero (h.pending_ne_zero hwaits)
  simp [Builder.patch, Nat.not_lt.mpr hle, hhole.1, hhole.2, hpending]

/-- **What a patch does**: if the target is in range and the hole of the handle is at the index of
the handle, then that slot is filled; otherwise the patch is refused, and nothing changes. -/
theorem Balanced.patch_outcome (h : b.Balanced) (jump : PendingJump) (target : Nat) :
    (b.patch jump target).answer = .ok () ∧ target ≤ b.quads.size ∧
      (∃ q, b.HoleAt jump q ∧
        (b.patch jump target).next.quads = b.quads.setIfInBounds jump.index (q.aimed target)) ∨
    (∃ error, b.patch jump target = ⟨.error (.refused error), b, []⟩) ∧
      ∀ q, b.HoleAt jump q → b.quads.size < target := by
  rcases b.patch_cases jump target with ⟨error, heq⟩ | ⟨before, q, after, hwaits, hle, hpatch⟩
  · refine .inr ⟨⟨error, heq⟩, fun q hhole => Nat.lt_of_not_le fun hle => ?_⟩
    have hanswer := hhole.patch h hle
    rw [heq] at hanswer
    cases hanswer
  · rcases hpatch with ⟨hzero, -⟩ | ⟨pending, -, heq⟩
    · exact absurd hzero (h.pending_ne_zero hwaits)
    · refine .inl ⟨by rw [heq], hle, q, hwaits.holeAt, ?_⟩
      rw [heq, hwaits.setIfInBounds]
      rfl

end Builder

/-! ## 2. Where handles and holes come from -/

namespace Workshop

variable {w w' : Workshop} {calls : List (Nat × BuilderCall)} {i k : Nat} {call : BuilderCall}
  {handle : Handle} {q : Quad} {jump : PendingJump} {b b' : Builder}

/-- In a run of the calls, the one at `k` issues the handle and appends the jump `q`. -/
def IssuedAt (w : Workshop) (calls : List (Nat × BuilderCall)) (k : Nat) (handle : Handle)
    (q : Quad) : Prop :=
  ∃ w₁ b op condition, w.run (calls.take k) = some w₁ ∧
    calls[k]? = some (handle.issuer, .emitJump op condition) ∧
    w₁.builder? handle.issuer = some b ∧ b.Issues op condition handle.jump q

theorem not_issuedAt_nil : ¬w.IssuedAt [] k handle q := by
  rintro ⟨w₁, b, op, condition, hrun, hget, hb, hissues⟩
  cases hget

theorem issuedAt_zero : w.IssuedAt ((i, call) :: calls) 0 handle q ↔
    ∃ b op condition, i = handle.issuer ∧ call = .emitJump op condition ∧
      w.builder? handle.issuer = some b ∧ b.Issues op condition handle.jump q := by
  constructor
  · rintro ⟨w₁, b, op, condition, hrun, hget, hb, hissues⟩
    cases hrun
    cases hget
    exact ⟨b, op, condition, rfl, rfl, hb, hissues⟩
  · rintro ⟨b, op, condition, rfl, rfl, hb, hissues⟩
    exact ⟨w, b, op, condition, rfl, rfl, hb, hissues⟩

theorem issuedAt_succ : w.IssuedAt ((i, call) :: calls) (k + 1) handle q ↔
    ∃ w₁, w.perform i call = some w₁ ∧ w₁.IssuedAt calls k handle q := by
  constructor
  · rintro ⟨w₂, b, op, condition, hrun, hget, hb, hissues⟩
    obtain ⟨w₁, hperform, hrun⟩ := run_cons hrun
    exact ⟨w₁, hperform, w₂, b, op, condition, hrun, hget, hb, hissues⟩
  · rintro ⟨w₁, hperform, w₂, b, op, condition, hrun, hget, hb, hissues⟩
    refine ⟨w₂, b, op, condition, ?_, hget, hb, hissues⟩
    rw [List.take_succ_cons, run, hperform]
    exact hrun

/-- A handle that somebody has after a call was there before, or the call issues it. -/
theorem handle_of_perform (hperform : w.perform i call = some w') (hmem : handle ∈ w'.handles) :
    handle ∈ w.handles ∨ ∃ q, w.IssuedAt ((i, call) :: calls) 0 handle q := by
  obtain ⟨b, hb, -, -, -, hhandles, -⟩ := perform_cases hperform
  rw [hhandles] at hmem
  cases call with
  | emitJump op condition =>
    cases hop : op.isJump with
    | false =>
      rw [handlesAfter, Builder.emitJump_of_not_isJump hop] at hmem
      exact .inl hmem
    | true =>
      rw [handlesAfter, Builder.emitJump_of_isJump hop, List.mem_cons] at hmem
      rcases hmem with rfl | hmem
      · have hissues : b.Issues op condition ⟨b.nextIndex, b.nextHole⟩ _ :=
          Builder.issues_iff.mpr ⟨hop, rfl, rfl⟩
        exact .inr ⟨_, issuedAt_zero.mpr ⟨b, op, condition, rfl, rfl, hb, hissues⟩⟩
      · exact .inl hmem
  | patch used target => exact .inl (List.mem_of_mem_erase hmem)
  | emit quad => exact .inl hmem
  | emitJumpTo op condition target => exact .inl hmem
  | finish => exact .inl hmem

theorem exists_issuedAt (hrun : w.run calls = some w') (hmem : handle ∈ w'.handles) :
    handle ∈ w.handles ∨ ∃ k q, w.IssuedAt calls k handle q := by
  induction calls generalizing w with
  | nil =>
    cases hrun
    exact .inl hmem
  | cons call calls ih =>
    obtain ⟨i, call⟩ := call
    obtain ⟨w₁, hperform, hrest⟩ := run_cons hrun
    rcases ih hrest with hmem₁ | ⟨k, q, hissued⟩
    · rcases handle_of_perform hperform hmem₁ with hmem | ⟨q, hissued⟩
      · exact .inl hmem
      · exact .inr ⟨0, q, hissued⟩
    · exact .inr ⟨k + 1, q, issuedAt_succ.mpr ⟨w₁, hperform, hissued⟩⟩

theorem exists_issuedAt_of_holeAt (h : w.Balanced) (hclean : ∀ call ∈ calls, call.2.isRaw = false)
    (hrun : w.run calls = some w') (hb' : w'.builder? i = some b') (hhole : b'.HoleAt jump q) :
    (∃ b, w.builder? i = some b ∧ b.HoleAt jump q) ∨ ∃ k, w.IssuedAt calls k ⟨i, jump⟩ q := by
  induction calls generalizing w with
  | nil =>
    cases hrun
    exact .inl ⟨b', hb', hhole⟩
  | cons call calls ih =>
    obtain ⟨j, call⟩ := call
    obtain ⟨w₁, hperform, hrest⟩ := run_cons hrun
    rw [List.forall_mem_cons] at hclean
    rcases ih (h.perform hclean.1 hperform) hclean.2 hrest with ⟨b₁, hb₁, hhole₁⟩ | ⟨k, hissued⟩
    · -- the hole was there after the first call
      obtain ⟨b, hb, -, hcalled, hothers, -⟩ := perform_cases hperform
      by_cases hij : i = j
      · subst hij
        rw [hcalled] at hb₁
        rcases hhole₁.of_after (h i b hb) hclean.1 hb₁ with hhole₀ | ⟨op, condition, rfl, hissues⟩
        · exact .inl ⟨b, hb, hhole₀⟩
        · exact .inr ⟨0, issuedAt_zero.mpr ⟨b, op, condition, rfl, rfl, hb, hissues⟩⟩
      · rw [hothers i hij] at hb₁
        exact .inl ⟨b₁, hb₁, hhole₁⟩
    · exact .inr ⟨k + 1, issuedAt_succ.mpr ⟨w₁, hperform, hissued⟩⟩

/-- Numbers of holes that are still to be given out have not been given out. -/
theorem IssuedAt.nextHole_le (h : w.IssuedAt calls k handle q) :
    ∃ b, w.builder? handle.issuer = some b ∧ b.nextHole ≤ handle.jump.hole := by
  induction calls generalizing w k with
  | nil => exact (not_issuedAt_nil h).elim
  | cons call calls ih =>
    obtain ⟨i, call⟩ := call
    cases k with
    | zero =>
      obtain ⟨b, op, condition, -, -, hb, hissues⟩ := issuedAt_zero.mp h
      obtain ⟨-, hjump, -⟩ := Builder.issues_iff.mp hissues
      exact ⟨b, hb, Nat.le_of_eq (by rw [hjump])⟩
    | succ k =>
      obtain ⟨w₁, hperform, hissued⟩ := issuedAt_succ.mp h
      obtain ⟨b₁, hb₁, hle⟩ := ih hissued
      obtain ⟨b, hb, -, hcalled, hothers, -⟩ := perform_cases hperform
      by_cases hi : handle.issuer = i
      · rw [hi, hcalled] at hb₁
        exact ⟨b, hi ▸ hb, Nat.le_trans (Builder.nextHole_le_after hb₁) hle⟩
      · exact ⟨b₁, (hothers _ hi).symm.trans hb₁, hle⟩

/-- The number of the hole is gone after the call that issues it. -/
theorem IssuedAt.not_later (h : w.IssuedAt ((i, call) :: calls) 0 handle q) {q' : Quad}
    (h' : w.IssuedAt ((i, call) :: calls) (k + 1) handle q') : False := by
  obtain ⟨b, op, condition, rfl, rfl, hb, hissues⟩ := issuedAt_zero.mp h
  obtain ⟨w₁, hperform, hissued⟩ := issuedAt_succ.mp h'
  obtain ⟨b₁, hb₁, hle⟩ := hissued.nextHole_le
  obtain ⟨b₀, hb₀, -, hcalled, -⟩ := perform_cases hperform
  rw [hb] at hb₀
  cases hb₀
  obtain ⟨hop, hjump, -⟩ := Builder.issues_iff.mp hissues
  rw [hcalled, Builder.after, Builder.emitJump_of_isJump hop] at hb₁
  cases hb₁
  rw [hjump] at hle
  exact Nat.not_succ_le_self _ hle

/-- **A handle is issued once.** -/
theorem IssuedAt.unique (h : w.IssuedAt calls k handle q) {k' : Nat} {q' : Quad}
    (h' : w.IssuedAt calls k' handle q') : k' = k ∧ q' = q := by
  induction calls generalizing w k k' with
  | nil => exact (not_issuedAt_nil h).elim
  | cons call calls ih =>
    obtain ⟨i, call⟩ := call
    cases k with
    | zero =>
      cases k' with
      | zero =>
        obtain ⟨b, op, condition, -, rfl, hb, hissues⟩ := issuedAt_zero.mp h
        obtain ⟨b₀, op₀, condition₀, -, hcall, hb₀, hissues₀⟩ := issuedAt_zero.mp h'
        cases hcall
        rw [hb] at hb₀
        cases hb₀
        exact ⟨rfl, Array.push_inj_right.mp (hissues₀.2.symm.trans hissues.2)⟩
      | succ k' => exact (h.not_later h').elim
    | succ k =>
      cases k' with
      | zero => exact (h'.not_later h).elim
      | succ k' =>
        obtain ⟨w₁, hperform, hissued⟩ := issuedAt_succ.mp h
        obtain ⟨w₂, hperform₂, hissued₂⟩ := issuedAt_succ.mp h'
        rw [hperform] at hperform₂
        cases hperform₂
        obtain ⟨hk, hq⟩ := ih hissued hissued₂
        exact ⟨congrArg Nat.succ hk, hq⟩

/-! ## 3. Patching with any handle -/

theorem IssuedAt.result (h : w.IssuedAt calls k handle q) :
    q.result = some (.target (.pending handle.jump.hole)) := by
  obtain ⟨-, b, op, condition, -, -, -, hissues⟩ := h
  exact hissues.result

/-- **A handle resolves the jump of the call that issued it, on the builder that issued it.** Every
handle was issued by one call. If a patch succeeds, then the jump that it resolves was appended by a
call on this builder that issued the same index and the same number, and nothing else changes.
Otherwise the patch is refused and changes nothing: there is no such jump that still waits, or the
target is out of range. -/
theorem patch_resolves_issued_jump {n : Nat} (hrun : (fresh n).run calls = some w)
    (hclean : ∀ call ∈ calls, call.2.isRaw = false) (hb : w.builder? i = some b)
    (hmem : handle ∈ w.handles) (target : Nat) :
    (∃ k q, (fresh n).IssuedAt calls k handle q ∧
      ∀ k' q', (fresh n).IssuedAt calls k' handle q' → k' = k ∧ q' = q) ∧
    ((b.patch handle.jump target).answer = .ok () ∧ target ≤ b.quads.size ∧
        (∃ k q,
          (fresh n).IssuedAt calls k ⟨i, handle.jump⟩ q ∧ b.quads[handle.jump.index]? = some q ∧
          (b.patch handle.jump target).next.quads =
            b.quads.setIfInBounds handle.jump.index (q.aimed target)) ∨
      (∃ error, b.patch handle.jump target = ⟨.error (.refused error), b, []⟩) ∧
        ∀ k q,
          (fresh n).IssuedAt calls k ⟨i, handle.jump⟩ q → b.quads[handle.jump.index]? = some q →
          b.quads.size < target) := by
  have hbalanced : b.Balanced := (balanced_fresh n).run hclean hrun i b hb
  constructor
  · rcases exists_issuedAt hrun hmem with hmem | ⟨k, q, hissued⟩
    · cases hmem
    · exact ⟨k, q, hissued, fun k' q' hissued' => hissued.unique hissued'⟩
  · rcases hbalanced.patch_outcome handle.jump target with ⟨hanswer, hle, q, hhole, hnext⟩ |
      ⟨hrefused, hnone⟩
    · rcases exists_issuedAt_of_holeAt (balanced_fresh n) hclean hrun hb hhole with
        ⟨b₀, hb₀, hhole₀⟩ | ⟨k, hissued⟩
      · -- a new builder has no holes
        rw [builder?_fresh hb₀] at hhole₀
        cases hhole₀.1
      · exact .inl ⟨hanswer, hle, k, q, hissued, hhole.1, hnext⟩
    · exact .inr ⟨hrefused, fun k q hissued hget => hnone q ⟨hget, hissued.result⟩⟩

/-- Three builders: the first two issue the same handle, and the third issues one with another
index. -/
def lookalikes : List (Nat × BuilderCall) :=
  [(0, .emitJump .jump none), (1, .emitJump .jumpIfFalse (some (.temp 1))),
    (2, .emit { op := .halt }), (2, .emitJump .jump none)]

theorem patch_resolves_issued_lookalike :
    ∃ w b, (fresh 3).run lookalikes = some w ∧ (∀ call ∈ lookalikes, call.2.isRaw = false) ∧
      w.builder? 1 = some b ∧ ⟨0, ⟨0, 0⟩⟩ ∈ w.handles ∧
      (∃ k q, (fresh 3).IssuedAt lookalikes k ⟨0, ⟨0, 0⟩⟩ q ∧
        ∀ k' q', (fresh 3).IssuedAt lookalikes k' ⟨0, ⟨0, 0⟩⟩ q' → k' = k ∧ q' = q) ∧
      ((b.patch ⟨0, 0⟩ 1).answer = .ok () ∧ 1 ≤ b.quads.size ∧
          (∃ k q, (fresh 3).IssuedAt lookalikes k ⟨1, ⟨0, 0⟩⟩ q ∧ b.quads[0]? = some q ∧
            (b.patch ⟨0, 0⟩ 1).next.quads = b.quads.setIfInBounds 0 (q.aimed 1)) ∨
        (∃ error, b.patch ⟨0, 0⟩ 1 = ⟨.error (.refused error), b, []⟩) ∧
          ∀ k q, (fresh 3).IssuedAt lookalikes k ⟨1, ⟨0, 0⟩⟩ q → b.quads[0]? = some q →
            b.quads.size < 1) := by
  have hclean : ∀ call ∈ lookalikes, call.2.isRaw = false := by decide
  have hmem : ⟨0, ⟨0, 0⟩⟩ ∈ [(⟨2, ⟨1, 0⟩⟩ : Handle), ⟨1, ⟨0, 0⟩⟩, ⟨0, ⟨0, 0⟩⟩] := by decide
  exact ⟨_, _, rfl, hclean, rfl, hmem, patch_resolves_issued_jump (n := 3) rfl hclean rfl hmem 1⟩

/-- A builder resolves its own jump with a handle that it did not issue. -/
theorem patch_takes_foreign_handle :
    ∃ w b, (fresh 2).run [(0, .emitJump .jump none), (1, .emitJump .jump none)] = some w ∧
      ⟨0, ⟨0, 0⟩⟩ ∈ w.handles ∧ w.builder? 1 = some b ∧ (b.patch ⟨0, 0⟩ 0).answer = .ok () ∧
      (b.patch ⟨0, 0⟩ 0).next.quads ≠ b.quads := by
  refine ⟨_, _, rfl, ?_, rfl, rfl, ?_⟩
  · decide
  · decide

end Workshop

end ThreeAddress
