import Mathlib.Tactic.FinCases
import ThreeAddress.Proofs.Syntax.Tree

/-!
# The grammar is unambiguous

A list of lexemes has at most one parse tree (`Tree.lexemes_injective`), so it makes sense to speak
of *the* parse tree of a source.

The induction needs to know where a subtree ends. A tree of a category can be read off the front of
a list of lexemes if what comes after it cannot continue it, `Tree.Ends`: a product is not followed
by `*` or `/`, a list of commands neither by a semicolon nor by the start of a command, and so on.
That a tree is `Readable` in this sense follows from the same for its subtrees, one lemma for each
rule.
-/

namespace ThreeAddress

namespace Tree

/-- Whether a lexeme starts a command. -/
def startsCommand (l : Lexeme) : Bool :=
  l.1 = .identifier ∨ l ∈ [Keyword.readWord, .writeWord, .ifWord, .whileWord].map Keyword.lexeme

/-- Whether a lexeme after a tree of a category may belong to a longer one. -/
def continues : NonTerminal → Lexeme → Bool
  | .declarations, l | .moreDeclarations, l =>
    l.1 = .semicolon ∨ l = Mark.comma.lexeme ∨
      l ∈ [VarType.real, .integer].map fun type => (.keyword, type.name)
  | .varDeclaration, l | .variableNames, l | .moreVariables, l => l = Mark.comma.lexeme
  | .commands, l | .moreCommands, l => l.1 = .semicolon ∨ l.1 = .operator ∨ startsCommand l
  | .elseBranch, l =>
    l = Keyword.elseWord.lexeme ∨ l.1 = .semicolon ∨ l.1 = .operator ∨ startsCommand l
  | .command, l | .condition, l | .expression, l | .otherTerms, l => l.1 = .operator
  | .term, l | .moreFactors, l => l ∈ Arithmetic.multiplicative.map Arithmetic.lexeme
  | .unaryOp, l => l = Arithmetic.subtract.lexeme
  | .program, _ | .body, _ | .varType, _ | .relation, _ | .factor, _ => false

/-- What comes after a tree of a category does not continue it. -/
def Ends (A : NonTerminal) (v : List Lexeme) : Prop :=
  ∀ l ∈ v.head?, continues A l = false

theorem Ends.nil (A : NonTerminal) : Ends A [] := by
  simp [Ends]

theorem ends_cons {A : NonTerminal} {l : Lexeme} {v : List Lexeme} :
    Ends A (l :: v) ↔ continues A l = false := by
  simp [Ends]

/-! ## 1. What can follow a subtree -/

theorem Ends.mono {A B : NonTerminal} {v : List Lexeme} (h : Ends A v)
    (hAB : ∀ l, continues B l = true → continues A l = true) : Ends B v := by
  intro l hl
  have hA := h l hl
  cases hB : continues B l with
  | false => rfl
  | true => rw [hAB l hB] at hA; cases hA

theorem ends_varDeclaration (more : Tree .moreDeclarations) {v : List Lexeme}
    (h : Ends .declarations v) : Ends .varDeclaration (more.lexemes ++ v) := by
  cases more with
  | endDeclarations => exact h.mono (by simp +contextual [continues])
  | moreDeclarations rest => exact ends_cons.mpr (by decide)

theorem head_command (c : Tree .command) :
    ∃ l rest, c.lexemes = l :: rest ∧ startsCommand l = true := by
  cases c <;> exact ⟨_, _, rfl, by simp [startsCommand, Keyword.lexeme]⟩

theorem head_commands (cs : Tree .commands) :
    ∃ l rest, cs.lexemes = l :: rest ∧ startsCommand l = true := by
  cases cs with
  | commands first more =>
    obtain ⟨l, rest, hl, hs⟩ := head_command first
    exact ⟨l, rest ++ more.lexemes, by rw [lexemes, hl]; rfl, hs⟩

theorem not_operator_of_startsCommand {l : Lexeme} (h : startsCommand l = true) :
    l.1 ≠ .operator ∧ l.1 ≠ .semicolon := by
  simp only [startsCommand, decide_eq_true_eq] at h
  rcases h with h | h
  · simp [h]
  · fin_cases h <;> simp [Keyword.lexeme]

theorem ends_command (more : Tree .moreCommands) {v : List Lexeme} (h : Ends .commands v) :
    Ends .command (more.lexemes ++ v) := by
  cases more with
  | endCommands => exact h.mono (by simp +contextual [continues])
  | separated rest => exact ends_cons.mpr (by decide)
  | juxtaposed rest =>
    obtain ⟨l, more, hl, hs⟩ := head_commands rest
    rw [lexemes, hl]
    exact ends_cons.mpr (by simp [continues, (not_operator_of_startsCommand hs).1])

theorem ends_onTrue (onFalse : Tree .elseBranch) (v : List Lexeme) :
    Ends .commands (onFalse.lexemes ++ Mark.dollar.lexeme :: v) := by
  cases onFalse with
  | noElse => exact ends_cons.mpr (by decide)
  | elseBranch cs => exact ends_cons.mpr (by decide)

theorem ends_elseCommands {v : List Lexeme} (h : Ends .elseBranch v) : Ends .commands v :=
  h.mono fun l hl => by
    simp only [continues, decide_eq_true_eq] at hl ⊢
    exact Or.inr hl

theorem ends_left (r : Tree .relation) (v : List Lexeme) :
    Ends .expression (r.lexemes ++ v) := by
  cases r with
  | relation c => exact ends_cons.mpr (by simp [continues])

theorem ends_term (more : Tree .otherTerms) {v : List Lexeme} (h : Ends .otherTerms v) :
    Ends .term (more.lexemes ++ v) := by
  cases more with
  | endTerms =>
    refine h.mono fun l hl => ?_
    simp only [continues, decide_eq_true_eq] at hl ⊢
    obtain ⟨op, -, rfl⟩ := List.mem_map.mp hl
    rfl
  | otherTerms op additive next more =>
    refine ends_cons.mpr ?_
    fin_cases additive <;> decide

theorem ends_unaryOp (first : Tree .factor) (v : List Lexeme) :
    Ends .unaryOp (first.lexemes ++ v) := by
  cases first with
  | identifier name => exact ends_cons.mpr (by simp [continues, Arithmetic.lexeme])
  | literal type text =>
    exact ends_cons.mpr (by cases type <;> simp [continues, Arithmetic.lexeme, VarType.literalKind])
  | parenthesized inner => exact ends_cons.mpr (by decide)

/-! ## 2. Optional parts -/

section

variable {A : NonTerminal} {t t' : Tree A} {v v' : List Lexeme}

/-- A tree whose first lexeme continues its category: an optional part that is there. -/
def Present (t : Tree A) : Prop :=
  ∀ v, ¬ Ends A (t.lexemes ++ v)

theorem present_of_cons {l : Lexeme} {rest : List Lexeme} (ht : t.lexemes = l :: rest)
    (hl : continues A l = true) : Present t := by
  intro v h
  rw [ht, List.cons_append, ends_cons, hl] at h
  cases h

theorem present_declarations (first : Tree .varDeclaration) (more : Tree .moreDeclarations) :
    Present (declarations first more) := by
  cases first with
  | varDeclaration type names =>
    cases type with
    | varType type => cases type <;> exact present_of_cons rfl (by decide)

theorem present_juxtaposed (rest : Tree .commands) : Present (juxtaposed rest) := by
  obtain ⟨l, more, hl, hs⟩ := head_commands rest
  exact present_of_cons hl (by simp [continues, hs])

theorem present_otherTerms {op : Arithmetic} (additive : op ∈ Arithmetic.additive)
    (next : Tree .term) (more : Tree .otherTerms) : Present (otherTerms op additive next more) :=
  present_of_cons rfl (by simp [continues, Arithmetic.lexeme])

theorem present_moreFactors {op : Arithmetic} (multiplicative : op ∈ Arithmetic.multiplicative)
    (next : Tree .factor) (more : Tree .moreFactors) :
    Present (moreFactors op multiplicative next more) := by
  refine present_of_cons rfl ?_
  simp only [continues, decide_eq_true_eq]
  exact List.mem_map_of_mem multiplicative

/-- A part that is there is not confused with one that is not. -/
theorem Present.ne_of_empty (ht : Present t) (ht' : t'.lexemes = [])
    (h : t.lexemes ++ v = t'.lexemes ++ v') : ¬ Ends A v' := by
  rw [ht', List.nil_append] at h
  exact h ▸ ht v

/-! ## 3. Reading a tree off -/

/-- A tree that can be read off the front of a list of lexemes in one way only. -/
def Readable (t : Tree A) : Prop :=
  ∀ (t' : Tree A) ⦃v v' : List Lexeme⦄, t.lexemes ++ v = t'.lexemes ++ v' →
    Ends A v → Ends A v' → t = t' ∧ v = v'

theorem readable_of_empty (ht : t.lexemes = []) (hothers : ∀ t' : Tree A, t' = t ∨ Present t') :
    Readable t := by
  intro t' v v' h hv hv'
  rcases hothers t' with rfl | hp
  · exact ⟨rfl, List.append_cancel_left h⟩
  · exact absurd hv (hp.ne_of_empty ht h.symm)

end

/-! ### Declarations -/

theorem readable_varType (type : VarType) : Readable (varType type) := by
  intro t' v v' h hv hv'
  cases t' with
  | varType type' =>
    obtain ⟨hl, hr⟩ := List.cons.inj h
    refine ⟨?_, hr⟩
    cases type <;> cases type' <;> first | rfl | exact absurd hl (by decide)

theorem readable_variableNames (name : String) {more : Tree .moreVariables} (hm : Readable more) :
    Readable (variableNames name more) := by
  intro t' v v' h hv hv'
  cases t' with
  | variableNames name' more' =>
    obtain ⟨hn, hr⟩ := List.cons.inj h
    obtain rfl := (Prod.mk.inj hn).2
    obtain ⟨rfl, h₁⟩ := hm more' hr hv hv'
    exact ⟨rfl, h₁⟩

theorem readable_endVariables : Readable endVariables := by
  refine readable_of_empty rfl fun t' => ?_
  cases t' with
  | endVariables => exact .inl rfl
  | moreVariables rest => exact .inr (present_of_cons rfl (by decide))

theorem readable_moreVariables {rest : Tree .variableNames} (hr : Readable rest) :
    Readable (moreVariables rest) := by
  intro t' v v' h hv hv'
  cases t' with
  | endVariables => exact absurd hv' ((present_of_cons rfl (by decide)).ne_of_empty rfl h)
  | moreVariables rest' =>
    obtain ⟨rfl, h₁⟩ := hr rest' (List.cons.inj h).2 hv hv'
    exact ⟨rfl, h₁⟩

theorem readable_varDeclaration {type : Tree .varType} {names : Tree .variableNames}
    (ht : Readable type) (hn : Readable names) : Readable (varDeclaration type names) := by
  intro t' v v' h hv hv'
  cases t' with
  | varDeclaration type' names' =>
    simp only [lexemes, List.cons_append, List.append_assoc] at h
    obtain ⟨rfl, h₁⟩ := ht type' h (fun _ _ => rfl) (fun _ _ => rfl)
    obtain ⟨rfl, h₂⟩ := hn names' (List.cons.inj h₁).2 hv hv'
    exact ⟨rfl, h₂⟩

theorem readable_noDeclarations : Readable noDeclarations := by
  refine readable_of_empty rfl fun t' => ?_
  cases t' with
  | noDeclarations => exact .inl rfl
  | declarations first more => exact .inr (present_declarations first more)

theorem readable_declarations {first : Tree .varDeclaration} {more : Tree .moreDeclarations}
    (hf : Readable first) (hm : Readable more) : Readable (declarations first more) := by
  intro t' v v' h hv hv'
  cases t' with
  | noDeclarations => exact absurd hv' ((present_declarations first more).ne_of_empty rfl h)
  | declarations first' more' =>
    simp only [lexemes, List.append_assoc] at h
    obtain ⟨rfl, h₁⟩ := hf first' h (ends_varDeclaration more hv) (ends_varDeclaration more' hv')
    obtain ⟨rfl, h₂⟩ := hm more' h₁ hv hv'
    exact ⟨rfl, h₂⟩

theorem readable_endDeclarations : Readable endDeclarations := by
  refine readable_of_empty rfl fun t' => ?_
  cases t' with
  | endDeclarations => exact .inl rfl
  | moreDeclarations rest => exact .inr (present_of_cons rfl (by decide))

theorem readable_moreDeclarations {rest : Tree .declarations} (hr : Readable rest) :
    Readable (moreDeclarations rest) := by
  intro t' v v' h hv hv'
  cases t' with
  | endDeclarations => exact absurd hv' ((present_of_cons rfl (by decide)).ne_of_empty rfl h)
  | moreDeclarations rest' =>
    obtain ⟨rfl, h₁⟩ := hr rest' (List.cons.inj h).2 hv hv'
    exact ⟨rfl, h₁⟩

/-! ### Expressions -/

theorem symbol_injective {c c' : Comparison} (h : c.operator.symbol = c'.operator.symbol) :
    c = c' := by
  have distinct : ∀ c ∈ Comparison.all, ∀ c' ∈ Comparison.all,
      c.operator.symbol = c'.operator.symbol → c = c' := by decide +kernel
  exact distinct c (by cases c <;> decide) c' (by cases c' <;> decide) h

theorem lexeme_injective {op op' : Arithmetic} (h : op.lexeme = op'.lexeme) : op = op' := by
  have distinct : ∀ op ∈ Arithmetic.all, ∀ op' ∈ Arithmetic.all,
      op.lexeme = op'.lexeme → op = op' := by decide +kernel
  exact distinct op (by cases op <;> decide) op' (by cases op' <;> decide) h

theorem readable_identifier (name : String) : Readable (identifier name) := by
  intro t' v v' h hv hv'
  cases t' with
  | identifier name' =>
    obtain ⟨hn, hr⟩ := List.cons.inj h
    exact ⟨by rw [(Prod.mk.inj hn).2], hr⟩
  | literal type text => cases type <;> simp [lexemes, VarType.literalKind] at h
  | parenthesized inner => simp [lexemes, Mark.lexeme] at h

theorem readable_literal (type : VarType) (text : String) : Readable (literal type text) := by
  intro t' v v' h hv hv'
  cases t' with
  | identifier name => cases type <;> simp [lexemes, VarType.literalKind] at h
  | literal type' text' =>
    obtain ⟨hl, hr⟩ := List.cons.inj h
    obtain ⟨hk, rfl⟩ := Prod.mk.inj hl
    refine ⟨?_, hr⟩
    cases type <;> cases type' <;> first | rfl | exact absurd hk (by decide)
  | parenthesized inner => cases type <;> simp [lexemes, VarType.literalKind, Mark.lexeme] at h

theorem readable_parenthesized {inner : Tree .expression} (hi : Readable inner) :
    Readable (parenthesized inner) := by
  intro t' v v' h hv hv'
  cases t' with
  | identifier name => simp [lexemes, Mark.lexeme] at h
  | literal type text => cases type <;> simp [lexemes, VarType.literalKind, Mark.lexeme] at h
  | parenthesized inner' =>
    simp only [lexemes, List.cons_append, List.append_assoc, List.nil_append, List.cons.injEq,
      true_and] at h
    obtain ⟨rfl, h₁⟩ := hi inner' h (ends_cons.mpr (by decide)) (ends_cons.mpr (by decide))
    exact ⟨rfl, (List.cons.inj h₁).2⟩

theorem readable_endFactors : Readable endFactors := by
  refine readable_of_empty rfl fun t' => ?_
  cases t' with
  | endFactors => exact .inl rfl
  | moreFactors op multiplicative next more =>
    exact .inr (present_moreFactors multiplicative next more)

theorem readable_moreFactors {op : Arithmetic} (multiplicative : op ∈ Arithmetic.multiplicative)
    {next : Tree .factor} {more : Tree .moreFactors} (hn : Readable next) (hm : Readable more) :
    Readable (moreFactors op multiplicative next more) := by
  intro t' v v' h hv hv'
  cases t' with
  | endFactors =>
    exact absurd hv' ((present_moreFactors multiplicative next more).ne_of_empty rfl h)
  | moreFactors op' multiplicative' next' more' =>
    simp only [lexemes, List.cons_append, List.append_assoc, List.cons.injEq] at h
    obtain rfl := lexeme_injective h.1
    obtain ⟨rfl, h₁⟩ := hn next' h.2 (fun _ _ => rfl) (fun _ _ => rfl)
    obtain ⟨rfl, h₂⟩ := hm more' h₁ hv hv'
    exact ⟨rfl, h₂⟩

theorem readable_sign : Readable sign := by
  intro t' v v' h hv hv'
  cases t' with
  | sign => exact ⟨rfl, (List.cons.inj h).2⟩
  | noSign => exact absurd hv' ((present_of_cons rfl (by decide)).ne_of_empty rfl h)

theorem readable_noSign : Readable noSign := by
  refine readable_of_empty rfl fun t' => ?_
  cases t' with
  | noSign => exact .inl rfl
  | sign => exact .inr (present_of_cons rfl (by decide))

theorem readable_term {s : Tree .unaryOp} {first : Tree .factor} {more : Tree .moreFactors}
    (hs : Readable s) (hf : Readable first) (hm : Readable more) :
    Readable (term s first more) := by
  intro t' v v' h hv hv'
  cases t' with
  | term s' first' more' =>
    simp only [lexemes, List.append_assoc] at h
    obtain ⟨rfl, h₁⟩ := hs s' h (ends_unaryOp first _) (ends_unaryOp first' _)
    obtain ⟨rfl, h₂⟩ := hf first' h₁ (fun _ _ => rfl) (fun _ _ => rfl)
    obtain ⟨rfl, h₃⟩ := hm more' h₂ hv hv'
    exact ⟨rfl, h₃⟩

theorem readable_endTerms : Readable endTerms := by
  refine readable_of_empty rfl fun t' => ?_
  cases t' with
  | endTerms => exact .inl rfl
  | otherTerms op additive next more => exact .inr (present_otherTerms additive next more)

theorem readable_otherTerms {op : Arithmetic} (additive : op ∈ Arithmetic.additive)
    {next : Tree .term} {more : Tree .otherTerms} (hn : Readable next) (hm : Readable more) :
    Readable (otherTerms op additive next more) := by
  intro t' v v' h hv hv'
  cases t' with
  | endTerms => exact absurd hv' ((present_otherTerms additive next more).ne_of_empty rfl h)
  | otherTerms op' additive' next' more' =>
    simp only [lexemes, List.cons_append, List.append_assoc, List.cons.injEq] at h
    obtain rfl := lexeme_injective h.1
    obtain ⟨rfl, h₁⟩ := hn next' h.2 (ends_term more hv) (ends_term more' hv')
    obtain ⟨rfl, h₂⟩ := hm more' h₁ hv hv'
    exact ⟨rfl, h₂⟩

theorem readable_expression {first : Tree .term} {more : Tree .otherTerms} (hf : Readable first)
    (hm : Readable more) : Readable (expression first more) := by
  intro t' v v' h hv hv'
  cases t' with
  | expression first' more' =>
    simp only [lexemes, List.append_assoc] at h
    obtain ⟨rfl, h₁⟩ := hf first' h (ends_term more hv) (ends_term more' hv')
    obtain ⟨rfl, h₂⟩ := hm more' h₁ hv hv'
    exact ⟨rfl, h₂⟩

theorem readable_relation (c : Comparison) : Readable (relation c) := by
  intro t' v v' h hv hv'
  cases t' with
  | relation c' =>
    obtain ⟨hc, hr⟩ := List.cons.inj h
    exact ⟨by rw [symbol_injective (Prod.mk.inj hc).2], hr⟩

theorem readable_condition {left right : Tree .expression} {relation : Tree .relation}
    (hl : Readable left) (hc : Readable relation) (hr : Readable right) :
    Readable (condition left relation right) := by
  intro t' v v' h hv hv'
  cases t' with
  | condition left' relation' right' =>
    simp only [lexemes, List.append_assoc] at h
    obtain ⟨rfl, h₁⟩ := hl left' h (ends_left relation _) (ends_left relation' _)
    obtain ⟨rfl, h₂⟩ := hc relation' h₁ (fun _ _ => rfl) (fun _ _ => rfl)
    obtain ⟨rfl, h₃⟩ := hr right' h₂ hv hv'
    exact ⟨rfl, h₃⟩

/-! ### Commands -/

theorem readable_read (name : String) : Readable (read name) := by
  intro t' v v' h hv hv'
  cases t' with
  | read name' =>
    simp only [lexemes, List.cons_append, List.nil_append, List.cons.injEq, Prod.mk.injEq,
      true_and] at h
    exact ⟨by rw [h.1], h.2⟩
  | _ => simp [lexemes, Keyword.lexeme, Keyword.text] at h

theorem readable_write (name : String) : Readable (write name) := by
  intro t' v v' h hv hv'
  cases t' with
  | write name' =>
    simp only [lexemes, List.cons_append, List.nil_append, List.cons.injEq, Prod.mk.injEq,
      true_and] at h
    exact ⟨by rw [h.1], h.2⟩
  | _ => simp [lexemes, Keyword.lexeme, Keyword.text] at h

theorem readable_assign (name : String) {value : Tree .expression} (he : Readable value) :
    Readable (assign name value) := by
  intro t' v v' h hv hv'
  cases t' with
  | assign name' value' =>
    simp only [lexemes, List.cons_append, List.cons.injEq, Prod.mk.injEq, true_and] at h
    obtain ⟨rfl, h⟩ := h
    obtain ⟨rfl, h₁⟩ := he value' h hv hv'
    exact ⟨rfl, h₁⟩
  | _ => simp [lexemes, Keyword.lexeme] at h

theorem readable_conditional {test : Tree .condition} {onTrue : Tree .commands}
    {onFalse : Tree .elseBranch} (ht : Readable test) (ha : Readable onTrue)
    (hb : Readable onFalse) : Readable (conditional test onTrue onFalse) := by
  intro t' v v' h hv hv'
  cases t' with
  | conditional test' onTrue' onFalse' =>
    simp only [lexemes, List.cons_append, List.append_assoc, List.nil_append, List.cons.injEq,
      true_and] at h
    obtain ⟨rfl, h₁⟩ := ht test' h (ends_cons.mpr (by decide)) (ends_cons.mpr (by decide))
    obtain ⟨rfl, h₂⟩ := ha onTrue' (List.cons.inj h₁).2 (ends_onTrue onFalse v)
      (ends_onTrue onFalse' v')
    obtain ⟨rfl, h₃⟩ := hb onFalse' h₂ (ends_cons.mpr (by decide)) (ends_cons.mpr (by decide))
    exact ⟨rfl, (List.cons.inj h₃).2⟩
  | _ => simp [lexemes, Keyword.lexeme, Keyword.text] at h

theorem readable_loop {test : Tree .condition} {body : Tree .commands} (ht : Readable test)
    (hb : Readable body) : Readable (loop test body) := by
  intro t' v v' h hv hv'
  cases t' with
  | loop test' body' =>
    simp only [lexemes, List.cons_append, List.append_assoc, List.nil_append, List.cons.injEq,
      true_and] at h
    obtain ⟨rfl, h₁⟩ := ht test' h (ends_cons.mpr (by decide)) (ends_cons.mpr (by decide))
    obtain ⟨rfl, h₂⟩ := hb body' (List.cons.inj h₁).2 (ends_cons.mpr (by decide))
      (ends_cons.mpr (by decide))
    exact ⟨rfl, (List.cons.inj h₂).2⟩
  | _ => simp [lexemes, Keyword.lexeme, Keyword.text] at h

theorem readable_noElse : Readable noElse := by
  refine readable_of_empty rfl fun t' => ?_
  cases t' with
  | noElse => exact .inl rfl
  | elseBranch cs => exact .inr (present_of_cons rfl (by decide))

theorem readable_elseBranch {cs : Tree .commands} (hc : Readable cs) :
    Readable (elseBranch cs) := by
  intro t' v v' h hv hv'
  cases t' with
  | noElse => exact absurd hv' ((present_of_cons rfl (by decide)).ne_of_empty rfl h)
  | elseBranch cs' =>
    obtain ⟨rfl, h₁⟩ := hc cs' (List.cons.inj h).2 (ends_elseCommands hv) (ends_elseCommands hv')
    exact ⟨rfl, h₁⟩

theorem readable_commands {first : Tree .command} {more : Tree .moreCommands}
    (hf : Readable first) (hm : Readable more) : Readable (commands first more) := by
  intro t' v v' h hv hv'
  cases t' with
  | commands first' more' =>
    simp only [lexemes, List.append_assoc] at h
    obtain ⟨rfl, h₁⟩ := hf first' h (ends_command more hv) (ends_command more' hv')
    obtain ⟨rfl, h₂⟩ := hm more' h₁ hv hv'
    exact ⟨rfl, h₂⟩

theorem readable_endCommands : Readable endCommands := by
  refine readable_of_empty rfl fun t' => ?_
  cases t' with
  | endCommands => exact .inl rfl
  | separated rest => exact .inr (present_of_cons rfl (by decide))
  | juxtaposed rest => exact .inr (present_juxtaposed rest)

/-- A semicolon does not start a command. -/
theorem separated_ne_juxtaposed {rest rest' : Tree .commands} {v v' : List Lexeme} :
    (separated rest).lexemes ++ v ≠ (juxtaposed rest').lexemes ++ v' := by
  intro h
  obtain ⟨l, more, hl, hs⟩ := head_commands rest'
  simp only [lexemes, hl, List.cons_append, List.cons.injEq] at h
  exact absurd (congrArg Prod.fst h.1).symm (not_operator_of_startsCommand hs).2

theorem readable_separated {rest : Tree .commands} (hr : Readable rest) :
    Readable (separated rest) := by
  intro t' v v' h hv hv'
  cases t' with
  | endCommands => exact absurd hv' ((present_of_cons rfl (by decide)).ne_of_empty rfl h)
  | separated rest' =>
    obtain ⟨rfl, h₁⟩ := hr rest' (List.cons.inj h).2 hv hv'
    exact ⟨rfl, h₁⟩
  | juxtaposed rest' => exact absurd h separated_ne_juxtaposed

theorem readable_juxtaposed {rest : Tree .commands} (hr : Readable rest) :
    Readable (juxtaposed rest) := by
  intro t' v v' h hv hv'
  cases t' with
  | endCommands => exact absurd hv' ((present_juxtaposed rest).ne_of_empty rfl h)
  | separated rest' => exact absurd h.symm separated_ne_juxtaposed
  | juxtaposed rest' =>
    obtain ⟨rfl, h₁⟩ := hr rest' h hv hv'
    exact ⟨rfl, h₁⟩

/-! ### Programs -/

theorem readable_body {ds : Tree .declarations} {cs : Tree .commands} (hd : Readable ds)
    (hc : Readable cs) : Readable (body ds cs) := by
  intro t' v v' h hv hv'
  cases t' with
  | body ds' cs' =>
    simp only [lexemes, List.cons_append, List.append_assoc, List.nil_append] at h
    obtain ⟨rfl, h₁⟩ := hd ds' h (ends_cons.mpr (by decide)) (ends_cons.mpr (by decide))
    obtain ⟨rfl, h₂⟩ := hc cs' (List.cons.inj h₁).2 (ends_cons.mpr (by decide))
      (ends_cons.mpr (by decide))
    exact ⟨rfl, (List.cons.inj h₂).2⟩

theorem readable_program (name : String) {b : Tree .body} (hb : Readable b) :
    Readable (program name b) := by
  intro t' v v' h hv hv'
  cases t' with
  | program name' b' =>
    simp only [lexemes, List.cons_append, List.append_assoc, List.nil_append, List.cons.injEq,
      Prod.mk.injEq, true_and] at h
    obtain ⟨rfl, h⟩ := h
    obtain ⟨rfl, h₁⟩ := hb b' h (fun _ _ => rfl) (fun _ _ => rfl)
    exact ⟨rfl, (List.cons.inj h₁).2⟩

/-- **Every tree can be read off the front of a list of lexemes in one way only.** -/
theorem readable {A : NonTerminal} (t : Tree A) : Readable t := by
  induction t with
  | program name b ih => exact readable_program name ih
  | body ds cs ihd ihc => exact readable_body ihd ihc
  | noDeclarations => exact readable_noDeclarations
  | declarations first more ihf ihm => exact readable_declarations ihf ihm
  | endDeclarations => exact readable_endDeclarations
  | moreDeclarations rest ih => exact readable_moreDeclarations ih
  | varDeclaration type names iht ihn => exact readable_varDeclaration iht ihn
  | varType type => exact readable_varType type
  | variableNames name more ih => exact readable_variableNames name ih
  | endVariables => exact readable_endVariables
  | moreVariables rest ih => exact readable_moreVariables ih
  | commands first more ihf ihm => exact readable_commands ihf ihm
  | endCommands => exact readable_endCommands
  | separated rest ih => exact readable_separated ih
  | juxtaposed rest ih => exact readable_juxtaposed ih
  | read name => exact readable_read name
  | write name => exact readable_write name
  | assign name value ih => exact readable_assign name ih
  | conditional test onTrue onFalse iht iha ihb => exact readable_conditional iht iha ihb
  | loop test body iht ihb => exact readable_loop iht ihb
  | noElse => exact readable_noElse
  | elseBranch cs ih => exact readable_elseBranch ih
  | condition left relation right ihl ihc ihr => exact readable_condition ihl ihc ihr
  | relation c => exact readable_relation c
  | expression first more ihf ihm => exact readable_expression ihf ihm
  | endTerms => exact readable_endTerms
  | otherTerms op additive next more ihn ihm => exact readable_otherTerms additive ihn ihm
  | term s first more ihs ihf ihm => exact readable_term ihs ihf ihm
  | sign => exact readable_sign
  | noSign => exact readable_noSign
  | identifier name => exact readable_identifier name
  | literal type text => exact readable_literal type text
  | parenthesized inner ih => exact readable_parenthesized ih
  | endFactors => exact readable_endFactors
  | moreFactors op multiplicative next more ihn ihm =>
    exact readable_moreFactors multiplicative ihn ihm

/-- **A list of lexemes has at most one parse tree.** -/
theorem lexemes_injective {A : NonTerminal} {t t' : Tree A} (h : t.lexemes = t'.lexemes) :
    t = t' :=
  (readable t t' (congrArg (· ++ []) h) (.nil A) (.nil A)).1

end Tree

end ThreeAddress
