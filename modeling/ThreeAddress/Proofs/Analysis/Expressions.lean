import Mathlib.Tactic.FinCases
import ThreeAddress.Proofs.Analysis.Steps

/-!
# The rules for expressions

What the rules for expressions do, by induction on their recursion bound: they read exactly the
tokens of one parse tree, and the code that they emit is the code of its meaning.
-/

namespace ThreeAddress

open Grammar Analyzer

variable {β : Type} {x : Scanned} {p : Products}
  {form : List (ContextFreeRule.Item Terminal NonTerminal)} {due bound : Nat}
  {seen coming : List Token} {Q : Point → β → Products → Prop}

/-! ## 1. What computing a value makes -/

/-- The value `v` of the expression `e` has been computed after `p` was made. -/
structure Computes (p : Products) (e : Expression) (v : Value) (p' : Products) : Prop where
  operand : v.operand = e.place (p.temps + 1)
  type : e.type? p.declared = some v.type
  products : p' = p.extend (e.code (p.temps + 1)) e.operations

theorem temps_extend_succ (p : Products) (code : List Quad) (n : Nat) :
    (p.extend code n).temps + 1 = p.temps + 1 + n :=
  Nat.add_right_comm ..

theorem Computes.var {name : String} {type : VarType} (h : p.declared name = some type) :
    Computes p (.var name) ⟨.var name, type⟩ p :=
  ⟨rfl, h, p.extend_nil.symm⟩

theorem Computes.literal (type : VarType) (text : String) :
    Computes p (.literal type text) ⟨.const text, type⟩ p :=
  ⟨rfl, rfl, p.extend_nil.symm⟩

theorem Computes.binary {p₁ p₂ : Products} {op : Arithmetic} {l r : Expression} {v w : Value}
    (hl : Computes p l v p₁) (hr : Computes p₁ r w p₂) :
    Computes p (.binary op l r) ⟨.temp (p₂.temps + 1), v.type.widen w.type⟩
      (p₂.compute fun temp => ⟨op.operator, some v.operand, some w.operand, some temp⟩) := by
  obtain ⟨hl, htl, rfl⟩ := hl
  obtain ⟨hr, htr, rfl⟩ := hr
  have htr' : r.type? p.declared = some w.type := htr
  constructor
  · simp only [temps_extend_succ, Expression.place]
  · simp [Expression.type?, htl, htr']
  · simp only [Products.compute, Products.extend_extend, temps_extend_succ, hl, hr,
      Expression.code, Expression.operations, List.append_assoc, Nat.add_assoc]

theorem Computes.negate {p₁ : Products} {e : Expression} {v : Value} (h : Computes p e v p₁) :
    Computes p (.negate e) ⟨.temp (p₁.temps + 1), v.type⟩
      (p₁.compute fun temp => ⟨.negate, some v.operand, none, some temp⟩) := by
  obtain ⟨ho, ht, rfl⟩ := h
  constructor
  · simp only [temps_extend_succ, Expression.place]
  · exact ht
  · simp only [Products.compute, Products.extend_extend, temps_extend_succ, ho, Expression.code,
      Expression.operations]

/-! ## 2. The rules, with what their calls do as hypotheses -/

/-- What the rules for expressions do when their recursion bound is enough for the tokens to come.
The rest of a sum or of a product goes on from a value `left` that has been computed. -/
structure ExpressionRules (x : Scanned) (bound : Nat) : Prop where
  expression : ∀ {form due seen coming p}, commandPart seen ≠ [] → 4 * coming.length + 3 ≤ bound →
    Reads x ⟨.nonterminal .expression :: form, due, seen, coming⟩ p (expression bound)
      (Recognized .expression form due seen coming fun tree v p' => Computes p tree.meaning v p')
  otherTerms : ∀ {form due seen coming p p₀ e left}, commandPart seen ≠ [] →
    4 * coming.length + 1 ≤ bound → Computes p₀ e left p →
    Reads x ⟨.nonterminal .otherTerms :: form, due, seen, coming⟩ p (otherTerms bound left)
      (Recognized .otherTerms form due seen coming fun tree v p' =>
        Computes p₀ (tree.meaning e) v p')
  term : ∀ {form due seen coming p}, commandPart seen ≠ [] → 4 * coming.length + 2 ≤ bound →
    Reads x ⟨.nonterminal .term :: form, due, seen, coming⟩ p (term bound)
      (Recognized .term form due seen coming fun tree v p' => Computes p tree.meaning v p')
  factor : ∀ {form due seen coming p}, commandPart seen ≠ [] → 4 * coming.length + 1 ≤ bound →
    Reads x ⟨.nonterminal .factor :: form, due, seen, coming⟩ p (factor bound)
      (Recognized .factor form due seen coming fun tree v p' => Computes p tree.meaning v p')
  moreFactors : ∀ {form due seen coming p p₀ e left}, commandPart seen ≠ [] →
    4 * coming.length + 1 ≤ bound → Computes p₀ e left p →
    Reads x ⟨.nonterminal .moreFactors :: form, due, seen, coming⟩ p (moreFactors bound left)
      (Recognized .moreFactors form due seen coming fun tree v p' =>
        Computes p₀ (tree.meaning e) v p')

theorem reads_expression (ih : ExpressionRules x bound) (hc : commandPart seen ≠ [])
    (hb : 4 * coming.length + 3 ≤ bound + 1) :
    Reads x ⟨.nonterminal .expression :: form, due, seen, coming⟩ p (expression (bound + 1))
      (Recognized .expression form due seen coming fun tree v p' =>
        Computes p tree.meaning v p') := by
  rw [expression]
  refine .expand rfl rfl ?_
  refine .call (ih.term hc (by omega)) fun u rest first left p₁ hcoming hfirst hleft => ?_
  subst hcoming
  rw [List.length_append] at hb
  refine .within ((ih.otherTerms (commandPart_append_ne_nil hc u) (by omega) hleft).mono ?_)
  rintro _ v p' ⟨u', rest', more, rfl, rfl, hmore, hv⟩
  exact ⟨u ++ u', rest', .expression first more, by simp, by simp, by simp [Tree.lexemes, *], hv⟩

theorem reads_factor (ih : ExpressionRules x bound) (hc : commandPart seen ≠ [])
    (hb : 4 * coming.length + 1 ≤ bound + 1) :
    Reads x ⟨.nonterminal .factor :: form, due, seen, coming⟩ p (factor (bound + 1))
      (Recognized .factor form due seen coming fun tree v p' => Computes p tree.meaning v p') := by
  rw [factor]
  refine .consume_bind (fun _ herror => .ended herror rfl) fun t rest hcoming => ?_
  subst hcoming
  rw [List.length_cons] at hb
  obtain ⟨hidentifier, hinteger, hfloat⟩ := Token.terminal?_class_iff (t := t)
  dsimp only
  by_cases hk : t.kind = .identifier
  · rw [if_pos hk]
    refine .expand (hidentifier.mpr hk) rfl (.reference_bind hk hc fun type htype => ?_)
    exact .pure
      ⟨[t], rest, .identifier t.text, rfl, rfl, by simp [Tree.lexemes, Token.lexeme_eq hk],
      .var htype⟩
  rw [if_neg hk]
  by_cases hi : t.kind = .integer
  · rw [if_pos hi]
    refine .expand (hinteger.mpr hi) rfl (.shift (hinteger.mpr hi) (by decide) (.pure ?_))
    exact ⟨[t], rest, .literal .integer t.text, rfl, rfl,
      by simp [Tree.lexemes, Token.lexeme_eq hi, VarType.literalKind], .literal _ _⟩
  rw [if_neg hi]
  by_cases hf : t.kind = .float
  · rw [if_pos hf]
    refine .expand (hfloat.mpr hf) rfl (.shift (hfloat.mpr hf) (by decide) (.pure ?_))
    exact ⟨[t], rest, .literal .real t.text, rfl, rfl,
      by simp [Tree.lexemes, Token.lexeme_eq hf, VarType.literalKind], .literal _ _⟩
  rw [if_neg hf]
  have hparen := Token.is_iff (t := t) (a := .mark .leftParen) rfl
  by_cases hp : t.is .symbol "(" = true
  · rw [if_pos hp]
    have hlexeme := (Token.terminal?_eq_some_iff rfl).mp (hparen.mp hp)
    refine .expand (hparen.mp hp) rfl (.shift (hparen.mp hp) (by decide) ?_)
    refine .call (ih.expression (commandPart_append_ne_nil hc [t]) (by omega))
      fun u rest' inner v p' hrest hinner hv => ?_
    refine .expect_bind (a := .mark .rightParen) rfl rfl fun t' rest'' hrest' ht' => .pure ?_
    subst hrest hrest'
    exact ⟨t :: u ++ [t'], rest'', .parenthesized inner, by simp, by simp [Terminal.cost],
      by simp [Tree.lexemes, Mark.lexeme, Mark.text, *], hv⟩
  · rw [if_neg hp]
    refine .unexpected (predict_of_not_first fun a ha hterminal => ?_)
    fin_cases ha
    · exact hk (hidentifier.mp hterminal)
    · exact hi (hinteger.mp hterminal)
    · exact hf (hfloat.mp hterminal)
    · exact hp (hparen.mpr hterminal)

theorem operator_injective {op op' : Arithmetic} (h : op.operator = op'.operator) : op = op' := by
  cases op <;> cases op' <;> first | rfl | cases h

/-- The next token is one of the operators `ops`, or it is not. -/
theorem Reads.peekArithmetic_bind (ops : List Arithmetic) {f : Option Operator → Analyzer β}
    (hop : ∀ t rest, ∀ op ∈ ops, coming = t :: rest → t.terminal? = some (.operator op) →
      Reads x ⟨form, due, seen, coming⟩ p (f (some op.operator)) Q)
    (hnone : (∀ a ∈ ops.map Terminal.operator, coming.head?.bind Token.terminal? ≠ some a) →
      Reads x ⟨form, due, seen, coming⟩ p (f none) Q) :
    Reads x ⟨form, due, seen, coming⟩ p
      (peekArithmetic (ops.map Arithmetic.operator) >>= f) Q := by
  rw [peekArithmetic, bind_assoc]
  refine .peek_bind ?_
  cases coming with
  | nil => exact hnone (fun _ _ h => by cases h)
  | cons t rest =>
    show Reads x _ p ((if t.kind = .operator then Pure.pure ((Operator.ofArithmetic? t.text).filter
      ((ops.map Arithmetic.operator).contains ·)) else Pure.pure none) >>= f) Q
    by_cases hk : t.kind = .operator
    · rw [if_pos hk, pure_bind]
      cases ho : Operator.ofArithmetic? t.text with
      | none =>
        refine hnone fun a ha hterminal => ?_
        obtain ⟨op, -, rfl⟩ := List.mem_map.mp ha
        rw [(Token.ofArithmetic?_eq_some_iff hk).mpr ⟨op, rfl, hterminal⟩] at ho
        cases ho
      | some o =>
        obtain ⟨op, rfl, hterminal⟩ := (Token.ofArithmetic?_eq_some_iff hk).mp ho
        have hcontains : (ops.map Arithmetic.operator).contains op.operator = true ↔ op ∈ ops := by
          rw [List.contains_iff_mem, List.mem_map]
          exact ⟨fun ⟨op', hmem, heq⟩ => operator_injective heq ▸ hmem, fun hmem => ⟨op, hmem, rfl⟩⟩
        rw [Option.filter_some]
        by_cases hmem : op ∈ ops
        · rw [if_pos (hcontains.mpr hmem)]
          exact hop t rest op hmem rfl hterminal
        · rw [if_neg (fun h => hmem (hcontains.mp h))]
          refine hnone fun a ha hterminal' => hmem ?_
          obtain ⟨op', hmem', rfl⟩ := List.mem_map.mp ha
          rw [show t.terminal? = some (.operator op') from hterminal'] at hterminal
          cases hterminal
          exact hmem'
    · rw [if_neg hk, pure_bind]
      refine hnone fun a ha hterminal => hk ?_
      obtain ⟨op, -, rfl⟩ := List.mem_map.mp ha
      exact congrArg Prod.fst ((Token.terminal?_eq_some_iff rfl).mp hterminal)

/-- An operator and its second operand, after a first one that has been computed. -/
theorem Reads.operation_bind {B : NonTerminal} {value : Tree B → Expression} {m : Analyzer Value}
    {f : Value → Analyzer β} {op : Arithmetic} {t : Token} {rest : List Token} {p₀ : Products}
    {e : Expression} {left : Value} (ht : t.terminal? = some (.operator op))
    (hleft : Computes p₀ e left p)
    (hm : Reads x ⟨.nonterminal B :: form, due + 1, seen ++ [t], rest⟩ p m
      (Recognized B form (due + 1) (seen ++ [t]) rest
        fun tree v p' => Computes p (value tree) v p'))
    (h : ∀ (u rest' : List Token) (next : Tree B) v p', rest = u ++ rest' →
      t.lexeme = op.lexeme → u.map Token.lexeme = next.lexemes →
      Computes p₀ (.binary op e (value next)) v p' →
      Reads x ⟨form, due, seen ++ t :: u, rest'⟩ p' (f v) Q) :
    Reads x ⟨.terminal (.operator op) :: .nonterminal B :: form, due, seen, t :: rest⟩ p
      (consume >>= fun _ => Analyzer.within B m >>= fun right =>
 binary op.operator left right >>= f) Q := by
  refine .consume_bind (fun h => by cases h) fun t' rest' hcoming => ?_
  obtain ⟨rfl, rfl⟩ := List.cons.inj hcoming
  refine .shift ht (by simp) (.call hm fun u rest' next right p₁ hrest hnext hright => ?_)
  rw [binary, bind_assoc, List.append_assoc]
  exact .compute_bind (h u rest' next _ _ hrest ((Token.terminal?_eq_some_iff rfl).mp ht) hnext
    (hleft.binary hright))

theorem predict_moreFactors {op : Arithmetic} (h : op ∈ Arithmetic.multiplicative) :
    predict .moreFactors (some (.operator op)) =
      some [.terminal (.operator op), .nonterminal .factor, .nonterminal .moreFactors] := by
  fin_cases h <;> rfl

theorem reads_moreFactors {p₀ : Products} {e : Expression} {left : Value}
    (ih : ExpressionRules x bound) (hc : commandPart seen ≠ [])
    (hb : 4 * coming.length + 1 ≤ bound + 1) (hleft : Computes p₀ e left p) :
    Reads x ⟨.nonterminal .moreFactors :: form, due, seen, coming⟩ p (moreFactors (bound + 1) left)
      (Recognized .moreFactors form due seen coming fun tree v p' =>
        Computes p₀ (tree.meaning e) v p') := by
  rw [moreFactors]
  refine .peekArithmetic_bind Arithmetic.multiplicative (fun t rest op hop hcoming ht => ?_)
    (fun hnone => ?_)
  · subst hcoming
    rw [List.length_cons] at hb
    refine .expand ht (predict_moreFactors hop) ?_
    refine .operation_bind ht hleft (ih.factor (commandPart_append_ne_nil hc [t]) (by omega))
      fun u rest' next v p₁ hrest hlexeme hnext hv => .within ?_
    subst hrest
    rw [List.length_append] at hb
    refine (ih.moreFactors (commandPart_append_ne_nil hc _) (by omega) hv).mono ?_
    rintro _ w p' ⟨u', rest'', more, rfl, rfl, hmore, hw⟩
    exact ⟨t :: u ++ u', rest'', .moreFactors op hop next more, by simp, by simp,
      by simp [Tree.lexemes, hlexeme, hnext, hmore], hw⟩
  · refine .expand rfl (predict_of_not_first hnone) (.pure ?_)
    exact ⟨[], coming, .endFactors, rfl, by simp, rfl, hleft⟩

theorem predict_otherTerms {op : Arithmetic} (h : op ∈ Arithmetic.additive) :
    predict .otherTerms (some (.operator op)) =
      some [.terminal (.operator op), .nonterminal .term, .nonterminal .otherTerms] := by
  fin_cases h <;> rfl

theorem reads_otherTerms {p₀ : Products} {e : Expression} {left : Value}
    (ih : ExpressionRules x bound) (hc : commandPart seen ≠ [])
    (hb : 4 * coming.length + 1 ≤ bound + 1) (hleft : Computes p₀ e left p) :
    Reads x ⟨.nonterminal .otherTerms :: form, due, seen, coming⟩ p (otherTerms (bound + 1) left)
      (Recognized .otherTerms form due seen coming fun tree v p' =>
        Computes p₀ (tree.meaning e) v p') := by
  rw [otherTerms]
  refine .peekArithmetic_bind Arithmetic.additive (fun t rest op hop hcoming ht => ?_)
    (fun hnone => ?_)
  · subst hcoming
    rw [List.length_cons] at hb
    refine .expand ht (predict_otherTerms hop) ?_
    refine .operation_bind ht hleft (ih.term (commandPart_append_ne_nil hc [t]) (by omega))
      fun u rest' next v p₁ hrest hlexeme hnext hv => .within ?_
    subst hrest
    rw [List.length_append] at hb
    refine (ih.otherTerms (commandPart_append_ne_nil hc _) (by omega) hv).mono ?_
    rintro _ w p' ⟨u', rest'', more, rfl, rfl, hmore, hw⟩
    exact ⟨t :: u ++ u', rest'', .otherTerms op hop next more, by simp, by simp,
      by simp [Tree.lexemes, hlexeme, hnext, hmore], hw⟩
  · refine .expand rfl (predict_of_not_first hnone) (.pure ?_)
    exact ⟨[], coming, .endTerms, rfl, by simp, rfl, hleft⟩

/-- A sign is taken; any other token is given back, and expected by what comes next. -/
theorem Reads.unaryOp_bind {f : Bool → Analyzer β}
    (hsign : ∀ t rest, coming = t :: rest → t.lexeme = Arithmetic.subtract.lexeme →
      Reads x ⟨form, due + 1, seen ++ [t], rest⟩ p (f true) Q)
    (hnone : Reads x ⟨form, due, seen, coming⟩ p (f false) Q) :
    Reads x ⟨.nonterminal .unaryOp :: form, due, seen, coming⟩ p
      (Analyzer.within .unaryOp unaryOp >>= f) Q := by
  refine .bind (.within ?_)
  rw [unaryOp]
  refine .consume_bind (fun hnil _ => ?_) fun t rest hcoming => ?_
  · subst hnil
    exact .expand rfl rfl (.pure hnone)
  · subst hcoming
    have hminus := Token.is_iff (t := t) (a := .operator .subtract) rfl
    dsimp only
    by_cases hm : t.is .operator "-" = true
    · rw [if_pos hm]
      refine .expand (hminus.mp hm) rfl (.shift (hminus.mp hm) (by decide) (.pure ?_))
      exact hsign t rest rfl ((Token.terminal?_eq_some_iff rfl).mp (hminus.mp hm))
    · rw [if_neg hm]
      refine .retract_bind (.expand rfl (predict_of_not_first fun a ha h => hm ?_) (.pure hnone))
      rw [List.mem_singleton.mp ha] at h
      exact hminus.mpr h

theorem reads_term (ih : ExpressionRules x bound) (hc : commandPart seen ≠ [])
    (hb : 4 * coming.length + 2 ≤ bound + 1) :
    Reads x ⟨.nonterminal .term :: form, due, seen, coming⟩ p (term (bound + 1))
      (Recognized .term form due seen coming fun tree v p' => Computes p tree.meaning v p') := by
  rw [term]
  refine .expand rfl rfl (.unaryOp_bind (fun t rest hcoming ht => ?_) ?_)
  · subst hcoming
    rw [List.length_cons] at hb
    refine .call (ih.factor (commandPart_append_ne_nil hc [t]) (by omega))
      fun u rest' first v p₁ hrest hfirst hv => ?_
    subst hrest
    rw [List.length_append] at hb
    rw [if_pos rfl]
    refine .compute_bind (.within ?_)
    refine (ih.moreFactors (commandPart_append_ne_nil (commandPart_append_ne_nil hc [t]) u)
      (by omega) hv.negate).mono ?_
    rintro _ w p' ⟨u', rest'', more, rfl, rfl, hmore, hw⟩
    exact ⟨t :: u ++ u', rest'', .term .sign first more, by simp, by simp,
      by simp [Tree.lexemes, ht, hfirst, hmore], hw⟩
  · refine .call (ih.factor hc (by omega)) fun u rest first v p₁ hcoming hfirst hv => ?_
    subst hcoming
    rw [List.length_append] at hb
    rw [if_neg Bool.false_ne_true, pure_bind]
    refine .within ((ih.moreFactors (commandPart_append_ne_nil hc u) (by omega) hv).mono ?_)
    rintro _ w p' ⟨u', rest', more, rfl, rfl, hmore, hw⟩
    exact ⟨u ++ u', rest', .term .noSign first more, by simp, by simp,
      by simp [Tree.lexemes, hfirst, hmore], hw⟩

/-- **The rules for expressions do what they should**, for every recursion bound. -/
theorem expressionRules (x : Scanned) (bound : Nat) : ExpressionRules x bound := by
  induction bound with
  | zero =>
    constructor
    all_goals intros; omega
  | succ bound ih =>
    exact {
      expression := reads_expression ih
      otherTerms := reads_otherTerms ih
      term := reads_term ih
      factor := reads_factor ih
      moreFactors := reads_moreFactors ih }

/-! ## 3. Conditions -/

/-- The operator of a comparison is taken. Its operation is computed later. -/
theorem Reads.relation_bind {f : Operator → Analyzer β}
    (h : ∀ t rest, ∀ c : Comparison, coming = t :: rest →
      t.lexeme = (.relational, c.operator.symbol) →
      Reads x ⟨form, due + 1, seen ++ [t], rest⟩ p (f c.operator) Q) :
    Reads x ⟨.nonterminal .relation :: form, due, seen, coming⟩ p
      (Analyzer.within .relation relation >>= f) Q := by
  refine .bind (.within ?_)
  rw [relation]
  refine .consume_bind (fun _ herror => .ended herror rfl) fun t rest hcoming => ?_
  dsimp only
  by_cases hk : t.kind = .relational
  · rw [if_pos hk]
    cases ho : Operator.ofRelational? t.text with
    | none =>
      refine .unexpected (predict_of_not_first fun a ha hc => ?_)
      obtain ⟨c, -, rfl⟩ := List.mem_map.mp ha
      rw [(Token.ofRelational?_eq_some_iff hk).mpr ⟨c, rfl, hc⟩] at ho
      cases ho
    | some o =>
      obtain ⟨c, rfl, ht⟩ := (Token.ofRelational?_eq_some_iff hk).mp ho
      refine .expand ht rfl (.shift ht (by simp) (.pure ?_))
      exact h t rest c hcoming ((Token.terminal?_eq_some_iff rfl).mp ht)
  · rw [if_neg hk]
    refine .unexpected (predict_of_not_first fun a ha hc => hk ?_)
    obtain ⟨c, -, rfl⟩ := List.mem_map.mp ha
    exact congrArg Prod.fst ((Token.terminal?_eq_some_iff rfl).mp hc)

/-- The outcome `c` of the test `t` has been computed after `p` was made. -/
structure Tests (p : Products) (t : Test) (c : Condition) (p' : Products) : Prop where
  temp : c.temp = t.temp (p.temps + 1)
  products : p' = p.extend (t.code (p.temps + 1)) t.operations

theorem Computes.compare {p₁ p₂ : Products} {c : Comparison} {l r : Expression} {v w : Value}
    (hl : Computes p l v p₁) (hr : Computes p₁ r w p₂) :
    Tests p ⟨l, c, r⟩ ⟨p₂.temps + 1⟩
      (p₂.compute fun temp => ⟨c.operator, some v.operand, some w.operand, some temp⟩) := by
  obtain ⟨hl, htl, rfl⟩ := hl
  obtain ⟨hr, htr, rfl⟩ := hr
  constructor
  · simp only [temps_extend_succ, Test.temp]
  · simp only [Products.compute, Products.extend_extend, temps_extend_succ, hl, hr, Test.code,
      Test.temp, Test.operations, List.append_assoc, Nat.add_assoc]

theorem compare_comparison (c : Comparison) (left right : Value) :
    (fun g : Generator => g.compare c.operator left right) = fun g => g.compute
      (fun temp => ⟨c.operator, some left.operand, some right.operand, some temp⟩)
      (fun temp => ⟨temp⟩) := by
  cases c <;> rfl

theorem reads_condition (hc : commandPart seen ≠ []) (hb : 4 * coming.length + 3 ≤ bound) :
    Reads x ⟨.nonterminal .condition :: form, due, seen, coming⟩ p (condition bound)
      (Recognized .condition form due seen coming fun tree c p' => Tests p tree.meaning c p') := by
  rw [condition]
  refine .expand rfl rfl (.call ((expressionRules x bound).expression hc hb)
    fun u rest left v p₁ hcoming hleft hv => ?_)
  subst hcoming
  rw [List.length_append] at hb
  refine .relation_bind fun t rest' c hrest ht => ?_
  subst hrest
  rw [List.length_cons] at hb
  have hc' := commandPart_append_ne_nil (commandPart_append_ne_nil hc u) [t]
  refine .call ((expressionRules x bound).expression hc' (by omega))
    fun u' rest'' right w p₂ hrest' hright hw => ?_
  subst hrest'
  rw [compare_comparison, ← bind_pure (_ >>= _), bind_assoc]
  refine .compute_bind (.pure ?_)
  exact ⟨u ++ t :: u', rest'', .condition left (.relation c) right, by simp, by simp,
    by simp [Tree.lexemes, hleft, ht, hright], hv.compare hw⟩

end ThreeAddress
