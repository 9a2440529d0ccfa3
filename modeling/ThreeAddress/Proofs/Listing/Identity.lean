import ThreeAddress.Proofs.Code.Temporaries
import ThreeAddress.Proofs.Listing.Reading

/-!
# What a listing tells about a program

Two accepted programs with the same listing have the same instructions, as far as a reader can see
them. All that a reader can mistake is an argument that is a temporary in one program and a variable
of the same name in the other. Nothing keeps a source from declaring a variable `T1`, so this does
happen.

It does not happen if one of the two programs has no temporary that is named like a variable. A
variable of the other program is declared there, so it is allocated in both; and a temporary that
the other program uses is computed there, so it is computed in both
(`Accepted.program_eq_of_blurred`).
-/

namespace ThreeAddress

variable {source source' : String} {a a' : Analysis} {tree tree' : Tree .program}

/-- No temporary of the program is named like one of its variables. -/
def Analysis.Unconfused (a : Analysis) : Prop :=
  ∀ q ∈ a.program.quads.toList, ∀ t, .temp t ∈ q.operands →
    (Operand.temp t).text ∉ a.symbols.symbols.toList.map Symbol.name

/-! ## 1. What is lost -/

theorem text_temp_injective {t t' : Nat} (h : (Operand.temp t).text = (Operand.temp t').text) :
    t = t' := by
  have hlist := congrArg String.toList h
  rw [toList_text_temp, toList_text_temp] at hlist
  have hdigits := congrArg (Nat.ofDigitChars 10 · 0) (List.cons.inj hlist).2
  simpa only [Text.ofDigitChars_toString] using hdigits

/-- Two operands that look alike are the same, or one of them is a temporary and the other a
variable of that name. -/
theorem Operand.eq_or_of_blurred {x y : Operand} (h : x.blurred = y.blurred) :
    x = y ∨ (∃ t, x = .temp t ∧ y = .var (temp t).text) ∨
      ∃ t, x = .var (temp t).text ∧ y = .temp t := by
  cases x with
  | temp t =>
    cases y with
    | temp t' => exact .inl (by rw [text_temp_injective (Operand.var.inj h)])
    | var name => exact .inr (.inl ⟨t, rfl, h.symm⟩)
    | const | target => cases h
  | var name =>
    cases y with
    | temp t => exact .inr (.inr ⟨t, h, rfl⟩)
    | var | const | target => exact .inl h
  | const text =>
    cases y with
    | temp t => cases h
    | var | const | target => exact .inl h
  | target n =>
    cases y with
    | temp t => cases h
    | var | const | target => exact .inl h

theorem Quad.eq_of_blurred {q q' : Quad} (h : q.blurred = q'.blurred)
    (hargs : ∀ x ∈ q.arguments, ∀ y ∈ q'.arguments, x.blurred = y.blurred → x = y) : q = q' := by
  have hslot : ∀ s s' : Option Operand, (∀ x ∈ s, x ∈ q.arguments) → (∀ y ∈ s', y ∈ q'.arguments) →
      s.map Operand.blurred = s'.map Operand.blurred → s = s' := by
    intro s s' hs hs' heq
    cases s with
    | none =>
      cases s' with
      | none => rfl
      | some y => cases heq
    | some x =>
      cases s' with
      | none => cases heq
      | some y => rw [hargs x (hs x rfl) y (hs' y rfl) (Option.some.inj heq)]
  obtain ⟨op, arg1, arg2, result⟩ := q
  obtain ⟨op', arg1', arg2', result'⟩ := q'
  simp only [blurred, Quad.mk.injEq] at h
  obtain ⟨rfl, h1, h2, rfl⟩ := h
  rw [hslot arg1 arg1' (fun x hx => mem_arguments_of_arg1 hx)
      (fun y hy => mem_arguments_of_arg1 hy) h1,
    hslot arg2 arg2' (fun x hx => mem_arguments_of_arg2 hx)
      (fun y hy => mem_arguments_of_arg2 hy) h2]

/-! ## 2. What is in both programs -/

theorem exists_same_result {code code' : List Quad}
    (heq : code.map Quad.blurred = code'.map Quad.blurred) {q' : Quad} (hq' : q' ∈ code') :
    ∃ q ∈ code, q.result = q'.result := by
  have hmem : q'.blurred ∈ code.map Quad.blurred := heq ▸ List.mem_map_of_mem hq'
  obtain ⟨q, hq, hblurred⟩ := List.mem_map.mp hmem
  have hresult : q.blurred.result = q'.blurred.result := congrArg Quad.result hblurred
  exact ⟨q, hq, hresult⟩

theorem Instruction.names_of_argument {names : String → Prop} {q : Quad} {name : String}
    (h : Instruction names IsLiteral q) (hname : .var name ∈ q.arguments) : names name := by
  cases h.isValue_of_mem hname with
  | var hname => exact hname

/-- The variables of the other program are declared in this one too. -/
theorem Accepted.declares_of_blurred (h : Accepted source a tree) (h' : Accepted source' a' tree')
    (heq : a.program.quads.toList.map Quad.blurred = a'.program.quads.toList.map Quad.blurred)
    {name : String} (hname : a'.Declares name) : a.Declares name := by
  obtain ⟨v, hv, rfl⟩ := List.mem_map.mp hname.1
  have halloc : v.alloc ∈ a'.program.quads.toList := by
    rw [h'.symbols] at hv
    rw [h'.code, SourceProgram.code, List.append_assoc]
    exact List.mem_append_left _ (List.mem_map_of_mem hv)
  obtain ⟨q, hq, hr⟩ := exists_same_result heq halloc
  exact (h.instruction_of_mem hq).names_of_result hr

/-- The temporaries that the other program uses are computed in this one too. -/
theorem Accepted.exists_result_of_blurred (h' : Accepted source' a' tree')
    (heq : a.program.quads.toList.map Quad.blurred = a'.program.quads.toList.map Quad.blurred)
    {q' : Quad} {t : Nat} (hq' : q' ∈ a'.program.quads.toList) (ht : .temp t ∈ q'.arguments) :
    ∃ q ∈ a.program.quads.toList, q.result = some (.temp t) := by
  rw [h'.code] at hq'
  obtain ⟨q'', hq'', hr⟩ := SourceProgram.exists_result_of_used hq' ht
  rw [← h'.code] at hq''
  obtain ⟨q, hq, hresult⟩ := exists_same_result heq hq''
  exact ⟨q, hq, hresult.trans hr⟩

theorem eq_of_map_eq {α β : Type} {f : α → β} {as bs : List α} (h : as.map f = bs.map f)
    (hf : ∀ x ∈ as, ∀ y ∈ bs, f x = f y → x = y) : as = bs := by
  induction as generalizing bs with
  | nil => exact (List.map_eq_nil_iff.mp h.symm).symm
  | cons x as ih =>
    obtain ⟨y, bs', rfl, hxy, hrest⟩ := List.map_eq_cons_iff.mp h.symm
    rw [hf x List.mem_cons_self y List.mem_cons_self hxy.symm,
      ih hrest.symm fun x hx y hy => hf x (List.mem_cons_of_mem _ hx) y (List.mem_cons_of_mem _ hy)]

/-- **If nothing can be mistaken in one of the programs, both are the same.** -/
theorem Accepted.program_eq_of_blurred (h : Accepted source a tree) (h' : Accepted source' a' tree')
    (heq : a.program.quads.toList.map Quad.blurred = a'.program.quads.toList.map Quad.blurred)
    (hu : a.Unconfused) : a.program = a'.program := by
  have hcode : a.program.quads.toList = a'.program.quads.toList := by
    refine eq_of_map_eq heq fun q hq q' hq' hblurred => ?_
    refine Quad.eq_of_blurred hblurred fun x hx y hy hxy => ?_
    rcases Operand.eq_or_of_blurred hxy with hsame | ⟨t, rfl, rfl⟩ | ⟨t, rfl, rfl⟩
    · exact hsame
    · -- a variable of the other program, which is declared here
      have hdeclares : a.Declares (Operand.temp t).text :=
        h.declares_of_blurred h' heq ((h'.instruction_of_mem hq').names_of_argument hy)
      exact absurd hdeclares.1 (hu q hq t (List.mem_append_left _ hx))
    · -- a temporary of the other program, which is computed here
      have hdeclares : a.Declares (Operand.temp t).text :=
        (h.instruction_of_mem hq).names_of_argument hx
      obtain ⟨p, hp, hr⟩ := h'.exists_result_of_blurred heq hq' hy
      exact absurd hdeclares.1 (hu p hp t (List.mem_append_right _ (by simp [hr])))
  exact congrArg Program.mk (Array.toList_inj.mp hcode)

/-! ## 3. Listings -/

theorem Accepted.blurred_of_render (h : Accepted source a tree) (h' : Accepted source' a' tree')
    {l : Listing} (heq : l.render a.program = l.render a'.program) :
    a.program.quads.toList.map Quad.blurred = a'.program.quads.toList.map Quad.blurred := by
  have hread := l.read_render fun q hq => (h.instruction_of_mem hq).mono fun _ hname => hname.2
  have hread' := l.read_render fun q hq => (h'.instruction_of_mem hq).mono fun _ hname => hname.2
  rw [← hread, ← hread', heq]

namespace Analysis

/-- **A listing identifies the program it lists**, except that a temporary may be mistaken for a
variable of the same name. -/
theorem listing_identifies_program (h : (ofSource source).1 = .ok a)
    (h' : (ofSource source').1 = .ok a')
    {l : Listing} (heq : l.render a.program = l.render a'.program) :
    a.program.quads.toList.map Quad.blurred = a'.program.quads.toList.map Quad.blurred ∧
      (a.Unconfused ∨ a'.Unconfused → a.program = a'.program) := by
  obtain ⟨tree, haccepted⟩ := exists_accepted h
  obtain ⟨tree', haccepted'⟩ := exists_accepted h'
  have hblurred := haccepted.blurred_of_render haccepted' heq
  refine ⟨hblurred, ?_⟩
  rintro (hu | hu)
  · exact haccepted.program_eq_of_blurred haccepted' hblurred hu
  · exact (haccepted'.program_eq_of_blurred haccepted hblurred.symm hu).symm

/-- The code of `a := left + right`, where one operand is `-b` and the other is the variable
`name`. -/
def sumOf (name : String) (left right : Operand) : Analysis where
  program := ⟨#[{ op := .alloc, arg1 := some (.const "0"), result := some (.var "a") },
    { op := .alloc, arg1 := some (.const "0"), result := some (.var "b") },
    { op := .alloc, arg1 := some (.const "0"), result := some (.var name) },
    ⟨.negate, some (.var "b"), none, some (.temp 1)⟩,
    ⟨.add, some left, some right, some (.temp 2)⟩,
    { op := .store, arg1 := some (.temp 2), result := some (.var "a") },
    { op := .halt }]⟩
  symbols := ⟨#[⟨"a", .integer⟩, ⟨"b", .integer⟩, ⟨name, .integer⟩]⟩

/-- Two sums of a temporary and a variable of the same name. -/
theorem render_sumOf :
    (ofSource "program p integer: a, b, T1 begin a := -b + T1 end.").1 =
      .ok (sumOf "T1" (.temp 1) (.var "T1")) ∧
    (ofSource "program p integer: a, b, T1 begin a := T1 + -b end.").1 =
      .ok (sumOf "T1" (.var "T1") (.temp 1)) ∧
    ∀ l : Listing, l.render (sumOf "T1" (.temp 1) (.var "T1")).program =
      l.render (sumOf "T1" (.var "T1") (.temp 1)).program := by
  refine ⟨by decide +kernel, by decide +kernel, ?_⟩
  rintro ⟨header, lineNumbers⟩
  cases header <;> cases lineNumbers <;> decide +kernel

theorem unconfused_sumOf : (sumOf "c" (.temp 1) (.var "c")).Unconfused := by
  intro q hq t ht
  have htemps : ∀ q ∈ (sumOf "c" (.temp 1) (.var "c")).program.quads.toList,
      ∀ x ∈ q.operands, ∀ t ∈ x.temps, t = 1 ∨ t = 2 := by decide
  rcases htemps q hq (.temp t) ht t (List.mem_singleton.mpr rfl) with rfl | rfl
  · decide
  · decide

theorem listing_identifies_sum :
    ((ofSource "program p integer: a, b, T1 begin a := -b + T1 end.").1 =
        .ok (sumOf "T1" (.temp 1) (.var "T1")) ∧
      (ofSource "program p integer: a, b, T1 begin a := T1 + -b end.").1 =
        .ok (sumOf "T1" (.var "T1") (.temp 1)) ∧
      Listing.render {} (sumOf "T1" (.temp 1) (.var "T1")).program =
        Listing.render {} (sumOf "T1" (.var "T1") (.temp 1)).program ∧
      (sumOf "T1" (.temp 1) (.var "T1")).program.quads.toList.map Quad.blurred =
        (sumOf "T1" (.var "T1") (.temp 1)).program.quads.toList.map Quad.blurred) ∧
    (ofSource "program p integer: a, b, c begin a := -b + c end.").1 =
      .ok (sumOf "c" (.temp 1) (.var "c")) ∧
    (sumOf "c" (.temp 1) (.var "c")).Unconfused := by
  obtain ⟨hleft, hright, hrender⟩ := render_sumOf
  exact ⟨⟨hleft, hright, hrender {}, (listing_identifies_program hleft hright (hrender {})).1⟩,
    by decide +kernel, unconfused_sumOf⟩

/-- The two sums are different programs with the same listing: one adds the variable `T1` to the
temporary, the other the temporary to the variable. -/
theorem listing_confuses_temporary :
    (ofSource "program p integer: a, b, T1 begin a := -b + T1 end.").1 =
      .ok (sumOf "T1" (.temp 1) (.var "T1")) ∧
    (ofSource "program p integer: a, b, T1 begin a := T1 + -b end.").1 =
      .ok (sumOf "T1" (.var "T1") (.temp 1)) ∧
    (∀ l : Listing, l.render (sumOf "T1" (.temp 1) (.var "T1")).program =
      l.render (sumOf "T1" (.var "T1") (.temp 1)).program) ∧
    (sumOf "T1" (.temp 1) (.var "T1")).program ≠ (sumOf "T1" (.var "T1") (.temp 1)).program ∧
    ¬ (sumOf "T1" (.temp 1) (.var "T1")).Unconfused := by
  obtain ⟨hleft, hright, hrender⟩ := render_sumOf
  refine ⟨hleft, hright, hrender, by decide, ?_⟩
  intro hu
  exact hu ⟨.negate, some (.var "b"), none, some (.temp 1)⟩ (by decide) 1 (by decide) (by decide)

end Analysis

end ThreeAddress
