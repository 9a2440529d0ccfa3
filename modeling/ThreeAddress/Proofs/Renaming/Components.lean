import ThreeAddress.Generator
import ThreeAddress.SymbolTable

/-!
# Renaming variables in code

The builder, the generator and the symbol table work with the names of variables, but only the
symbol table compares them. So a call with renamed arguments on a renamed component gives the same
answer, renamed, and leaves the renamed component behind (`Step.Renamed`). For the symbol table this
asks that no two names become one.
-/

namespace ThreeAddress

/-! ## 1. Renaming -/

variable {α β ε : Type} (r : String → String)

def Operand.rename : Operand → Operand
  | var name => var (r name)
  | const text => const text
  | temp number => temp number
  | target t => target t

def Quad.rename (q : Quad) : Quad where
  op := q.op
  arg1 := q.arg1.map (Operand.rename r)
  arg2 := q.arg2.map (Operand.rename r)
  result := q.result.map (Operand.rename r)

def Program.rename (p : Program) : Program where
  quads := p.quads.map (Quad.rename r)

def Symbol.rename (v : Symbol) : Symbol where
  name := r v.name
  type := v.type

def SymbolTable.rename (t : SymbolTable) : SymbolTable where
  symbols := t.symbols.map (Symbol.rename r)

def Builder.rename (b : Builder) : Builder :=
  { b with quads := b.quads.map (Quad.rename r) }

def Generator.rename (g : Generator) : Generator :=
  { g with builder := g.builder.rename r }

def Value.rename (v : Value) : Value where
  operand := v.operand.rename r
  type := v.type

variable {r}

/-- The second call answers as the first one does, and the component after it is the renamed one. -/
structure Step.Renamed {σ : Type} (f : σ → σ) (R : α → β → Prop) (s : Step σ α) (s' : Step σ β) :
    Prop where
  answer : R s.answer s'.answer
  next : s'.next = f s.next

/-- Both calls succeed, or they fail alike. -/
inductive SameAnswer (R : α → β → Prop) : Except ε α → Except ε β → Prop
  | ok {a : α} {b : β} (h : R a b) : SameAnswer R (.ok a) (.ok b)
  | error (e : ε) : SameAnswer R (.error e) (.error e)

theorem SameAnswer.refl (e : Except ε α) : SameAnswer Eq e e := by
  cases e with
  | ok a => exact .ok rfl
  | error e => exact .error e

/-! ## 2. The builder -/

theorem Operand.rename_eq_target_iff {o : Operand} {target : Target} :
    o.rename r = .target target ↔ o = .target target := by
  cases o <;> simp [rename]

theorem Quad.isPending_rename (q : Quad) : (q.rename r).isPending = q.isPending := by
  obtain ⟨op, arg1, arg2, _ | o⟩ := q
  · rfl
  · cases o <;> rfl

theorem Quad.result_rename_iff {q : Quad} {target : Target} :
    (q.rename r).result = some (.target target) ↔ q.result = some (.target target) := by
  obtain ⟨op, arg1, arg2, _ | o⟩ := q
  · simp [rename]
  · simp [rename, Operand.rename_eq_target_iff]

namespace Builder

theorem nextIndex_rename (b : Builder) : (b.rename r).nextIndex = b.nextIndex :=
  Array.size_map

theorem emit_renamed (b : Builder) (q : Quad) :
    Step.Renamed (rename r) Eq (b.emit q) ((b.rename r).emit (q.rename r)) where
  answer := b.nextIndex_rename.symm
  next := by simp [emit, rename]

theorem emitJump_renamed (b : Builder) (op : Operator) (condition : Option Operand) :
    Step.Renamed (rename r) Eq (b.emitJump op condition)
      ((b.rename r).emitJump op (condition.map (Operand.rename r))) := by
  unfold emitJump
  cases op.isJump with
  | false => exact ⟨rfl, rfl⟩
  | true =>
    have hemit :=
      emit_renamed (r := r) { b with nextHole := b.nextHole + 1, pending := b.pending + 1 }
      (Quad.jump op condition (.pending b.nextHole))
    exact ⟨congrArg (fun index => Except.ok (PendingJump.mk index b.nextHole)) hemit.answer,
      hemit.next⟩

theorem emitJumpTo_renamed (b : Builder) (op : Operator) (condition : Option Operand)
    (target : Nat) :
    Step.Renamed (rename r) Eq (b.emitJumpTo op condition target)
      ((b.rename r).emitJumpTo op (condition.map (Operand.rename r)) target) := by
  unfold emitJumpTo
  cases op.isJump with
  | false => exact ⟨rfl, rfl⟩
  | true =>
    have hemit := emit_renamed (r := r) b (Quad.jump op condition (.line target))
    exact ⟨congrArg Except.ok hemit.answer, hemit.next⟩

theorem patch_renamed (b : Builder) (jump : PendingJump) (target : Nat) :
    Step.Renamed (rename r) Eq (b.patch jump target) ((b.rename r).patch jump target) := by
  have hsize : (b.rename r).quads.size = b.quads.size := Array.size_map
  have hget : (b.rename r).quads[jump.index]? = b.quads[jump.index]?.map (Quad.rename r) :=
    Array.getElem?_map
  unfold patch
  rw [hsize, hget]
  split
  · exact ⟨rfl, rfl⟩
  · obtain ⟨quads, pending, nextHole⟩ := b
    cases quads[jump.index]? with
    | none => exact ⟨rfl, rfl⟩
    | some q =>
      have hset : (quads.setIfInBounds jump.index
          { q with result := some (.target (.line target)) }).map
          (Quad.rename r) = (quads.map (Quad.rename r)).setIfInBounds jump.index
            { q.rename r with result := some (.target (.line target)) } := by
        rw [Array.map_setIfInBounds]
        rfl
      dsimp only [Option.map_some, rename]
      by_cases hresult : q.result = some (.target (.pending jump.hole))
      · rw [if_pos hresult, if_pos (Quad.result_rename_iff.mpr hresult), ← hset]
        cases pending with
        | zero => exact ⟨rfl, rfl⟩
        | succ pending => exact ⟨rfl, rfl⟩
      · rw [if_neg hresult, if_neg (mt Quad.result_rename_iff.mp hresult)]
        exact ⟨rfl, rfl⟩

theorem pendingIndices_rename (b : Builder) : (b.rename r).pendingIndices = b.pendingIndices := by
  unfold pendingIndices rename
  rw [Array.toList_map, List.zipIdx_map, List.filter_map, List.map_map]
  have hpending : (fun p : Quad × Nat => p.1.isPending) ∘ Prod.map (Quad.rename r) id =
      fun p => p.1.isPending := by
    funext p
    exact p.1.isPending_rename
  rw [hpending]
  rfl

theorem finish_renamed (b : Builder) :
    SameAnswer (fun p p' => p' = p.rename r) b.finish (b.rename r).finish := by
  unfold finish
  rw [pendingIndices_rename]
  show SameAnswer _ (if 0 < b.pending then _ else _) (if 0 < b.pending then _ else _)
  split
  · exact .error _
  · exact .ok rfl

end Builder

/-! ## 3. The generator -/

namespace Generator

variable {R : α → β → Prop} (g : Generator)

theorem onBuilder_renamed {call call' : Builder → Step Builder α}
    (h : ∀ b, Step.Renamed (Builder.rename r) Eq (call b) (call' (b.rename r))) :
    Step.Renamed (rename r) Eq (g.onBuilder call) ((g.rename r).onBuilder call') where
  answer := (h g.builder).answer
  next := congrArg (fun builder => { g with builder }) (h g.builder).next

theorem emit_renamed (q : Quad) :
    Step.Renamed (rename r) Eq (g.emit q) ((g.rename r).emit (q.rename r)) :=
  g.onBuilder_renamed fun b => b.emit_renamed q

/-- The fresh temporary is the same one. -/
theorem compute_renamed {quad quad' : Operand → Quad} {answer : Nat → α} {answer' : Nat → β}
    (hquad : ∀ t, quad' (.temp t) = (quad (.temp t)).rename r)
    (hanswer : ∀ t, R (answer t) (answer' t)) :
    Step.Renamed (rename r) (SameAnswer R) (g.compute quad answer)
      ((g.rename r).compute quad' answer') := by
  unfold compute
  show Step.Renamed _ _ (if g.temps + 1 < tempLimit then _ else _)
    (if g.temps + 1 < tempLimit then _ else _)
  split
  · have hemit := emit_renamed (r := r) { g with temps := g.temps + 1 } (quad (.temp (g.temps + 1)))
    rw [← hquad] at hemit
    exact ⟨.ok (hanswer _), hemit.next⟩
  · exact ⟨.error _, rfl⟩

theorem binary_renamed (op : Operator) (v w : Value) :
    Step.Renamed (rename r) (SameAnswer fun v v' => v' = v.rename r) (g.binary op v w)
      ((g.rename r).binary op (v.rename r) (w.rename r)) :=
  g.compute_renamed (fun _ => rfl) fun _ => rfl

theorem negate_renamed (v : Value) :
    Step.Renamed (rename r) (SameAnswer fun v v' => v' = v.rename r) (g.negate v)
      ((g.rename r).negate (v.rename r)) :=
  g.compute_renamed (fun _ => rfl) fun _ => rfl

theorem compare_renamed (op : Operator) (v w : Value) :
    Step.Renamed (rename r) (SameAnswer Eq) (g.compare op v w)
      ((g.rename r).compare op (v.rename r) (w.rename r)) := by
  unfold compare
  cases op.isComparison with
  | false => exact ⟨.error _, rfl⟩
  | true =>
    rw [if_pos rfl, if_pos rfl]
    exact g.compute_renamed (fun _ => rfl) fun _ => rfl

theorem jumpIfFalse_renamed (c : Condition) :
    Step.Renamed (rename r) Eq (g.jumpIfFalse c) ((g.rename r).jumpIfFalse c) :=
  g.onBuilder_renamed fun b => b.emitJump_renamed .jumpIfFalse (some (.temp c.temp))

theorem jump_renamed : Step.Renamed (rename r) Eq g.jump (g.rename r).jump :=
  g.onBuilder_renamed fun b => b.emitJump_renamed .jump none

theorem jumpTo_renamed (target : Nat) :
    Step.Renamed (rename r) Eq (g.jumpTo target) ((g.rename r).jumpTo target) :=
  g.onBuilder_renamed fun b => b.emitJumpTo_renamed .jump none target

theorem patchHere_renamed (jump : PendingJump) :
    Step.Renamed (rename r) Eq (g.patchHere jump) ((g.rename r).patchHere jump) := by
  have hindex : (g.rename r).nextIndex = g.nextIndex := g.builder.nextIndex_rename
  have hpatch : Step.Renamed (rename r) Eq (g.onBuilder (·.patch jump g.nextIndex))
      ((g.rename r).onBuilder (·.patch jump g.nextIndex)) :=
    g.onBuilder_renamed fun b => b.patch_renamed jump g.nextIndex
  unfold patchHere
  rw [hindex]
  exact ⟨hpatch.answer, hpatch.next⟩

end Generator

/-! ## 4. The symbol table -/

namespace SymbolTable

/-- Names that stay apart are found under their new names. -/
theorem lookup?_rename {t : SymbolTable} {name : String}
    (h : ∀ v ∈ t.symbols.toList, r v.name = r name → v.name = name) :
    (t.rename r).lookup? (r name) = t.lookup? name := by
  unfold lookup? rename
  rw [← Array.find?_toList, ← Array.find?_toList, Array.toList_map]
  generalize t.symbols.toList = vs at h ⊢
  induction vs with
  | nil => rfl
  | cons v vs ih =>
    obtain ⟨hv, hvs⟩ := List.forall_mem_cons.mp h
    by_cases hname : v.name = name
    · have hnew : (v.rename r).name = r name := congrArg r hname
      rw [List.map_cons, List.find?_cons_of_pos (by simpa using hnew),
        List.find?_cons_of_pos (by simpa using hname)]
      rfl
    · have hnew : (v.rename r).name ≠ r name := fun heq => hname (hv heq)
      rw [List.map_cons, List.find?_cons_of_neg (by simpa using hnew),
        List.find?_cons_of_neg (by simpa using hname)]
      exact ih hvs

end SymbolTable

end ThreeAddress
