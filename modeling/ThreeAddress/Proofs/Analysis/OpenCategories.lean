import ThreeAddress.Proofs.Analysis.Descent
import ThreeAddress.Proofs.Analysis.Verdict
import ThreeAddress.Proofs.Lexer.Lossless

/-!
# The open categories of a rejection

Each rule of an analysis descends as the grammar asks for (`Descends`): it reads the rest of a right
side of its category, and when it is rejected on the way, the categories that it leaves open are a
path of the derivation. The proofs follow the text of the rules. Most of what they leave to check is
that some right side begins with what has been read, which is a question about the table of rules.

For a whole source this says what its log and its diagnostic have in common. The categories that the
log enters and does not leave are those that the diagnostic lists, and they are the path down which
the tokens before the reported position lead (`Analysis.stack_is_derivation_path`).
-/

namespace ThreeAddress

open Grammar ContextFreeRule Analyzer

section

variable {A : NonTerminal} {done : List (Item Terminal NonTerminal)} {coming : List Token}
  {error : Option LexError} {bound : Nat} {β : Type}

/-! ## 1. Expressions -/

/-- The rules for expressions descend, whatever their recursion bound. -/
structure ExpressionDescents (error : Option LexError) (bound : Nat) : Prop where
  expression : ∀ coming, Descends .expression [] coming error (expression bound)
  otherTerms : ∀ coming left, Descends .otherTerms [] coming error (otherTerms bound left)
  term : ∀ coming, Descends .term [] coming error (term bound)
  factor : ∀ coming, Descends .factor [] coming error (factor bound)
  moreFactors : ∀ coming left, Descends .moreFactors [] coming error (moreFactors bound left)

theorem Descends.peekArithmetic_bind (ops : List Arithmetic) {f : Option Operator → Analyzer β}
    (hexpects : Expects A done)
    (hop : ∀ t rest, ∀ op ∈ ops, coming = t :: rest → t.terminal? = some (.operator op) →
      Descends A done coming error (f (some op.operator)))
    (hnone : Descends A done coming error (f none)) :
    Descends A done coming error (peekArithmetic (ops.map Arithmetic.operator) >>= f) := by
  rw [peekArithmetic, bind_assoc]
  refine .peek_bind hexpects ?_
  cases coming with
  | nil => exact hnone
  | cons t rest =>
    show Descends A done _ error ((if t.kind = .operator then
      Pure.pure ((Operator.ofArithmetic? t.text).filter
        ((ops.map Arithmetic.operator).contains ·)) else Pure.pure none) >>= f)
    by_cases hk : t.kind = .operator
    · rw [if_pos hk, pure_bind]
      cases ho : (Operator.ofArithmetic? t.text).filter
        ((ops.map Arithmetic.operator).contains ·) with
      | none => exact hnone
      | some o =>
        obtain ⟨hsome, hcontains⟩ := Option.filter_eq_some_iff.mp ho
        obtain ⟨op, rfl, hterminal⟩ := (Token.ofArithmetic?_eq_some_iff hk).mp hsome
        obtain ⟨op', hmem, heq⟩ := List.mem_map.mp (List.contains_iff_mem.mp hcontains)
        exact hop t rest op (operator_injective heq ▸ hmem) rfl hterminal
    · rw [if_neg hk, pure_bind]
      exact hnone

/-- An operator and its second operand. -/
theorem Descends.operation_bind {B : NonTerminal} {m : Analyzer Value} {f : Value → Analyzer β}
    {op : Arithmetic} {o : Operator} {left : Value} {t : Token} {rest : List Token}
    (ht : t.terminal? = some (.operator op)) (hexpects : Expects A done)
    (hbegins : Begins A (done ++ [.terminal (.operator op)] ++ [.nonterminal B]))
    (hm : Descends B [] rest error m)
    (h : ∀ v rest,
      Descends A (done ++ [.terminal (.operator op)] ++ [.nonterminal B]) rest error (f v)) :
    Descends A done (t :: rest) error
      (consume >>= fun _ => within B m >>= fun right => binary o left right >>= f) := by
  refine .consume_bind hexpects (fun hnil => by cases hnil) fun t' rest' hcoming => ?_
  obtain ⟨rfl, rfl⟩ := List.cons.inj hcoming
  refine .shift ht (.call hbegins hm fun right _ rest' _ => ?_)
  rw [binary, bind_assoc]
  exact .onGenerator_bind (Generator.modest_compute ..) fun answer => .trust_bind fun v => h v rest'

theorem descends_unaryOp : Descends .unaryOp [] coming error unaryOp := by
  rw [unaryOp]
  refine .consume_bind (by decide) (fun _ => .pure (by decide)) fun t rest _ => ?_
  dsimp only
  by_cases hm : t.is .operator "-" = true
  · rw [if_pos hm]
    exact .shift ((Token.is_iff (a := .operator .subtract) rfl).mp hm) (.pure (by decide))
  · rw [if_neg hm]
    exact .retract_bind (.pure (by decide))

theorem descends_factor (ih : ExpressionDescents error bound) :
    Descends .factor [] coming error (factor (bound + 1)) := by
  rw [factor]
  refine .consume_bind (by decide) (fun _ => .ended (by decide)) fun t rest _ => ?_
  obtain ⟨hidentifier, hinteger, hfloat⟩ := Token.terminal?_class_iff (t := t)
  dsimp only
  by_cases hk : t.kind = .identifier
  · rw [if_pos hk]
    exact .reference_bind (by decide) fun _ => .identifier hk (.pure (by decide))
  rw [if_neg hk]
  by_cases hi : t.kind = .integer
  · rw [if_pos hi]
    exact .shift (hinteger.mpr hi) (.pure (by decide))
  rw [if_neg hi]
  by_cases hf : t.kind = .float
  · rw [if_pos hf]
    exact .shift (hfloat.mpr hf) (.pure (by decide))
  rw [if_neg hf]
  by_cases hp : t.is .symbol "(" = true
  · rw [if_pos hp]
    refine .shift ((Token.is_iff (a := .mark .leftParen) rfl).mp hp) ?_
    refine .call (by decide) (ih.expression rest) fun _ _ _ _ => ?_
    exact .expect_bind (a := .mark .rightParen) rfl (by decide) fun _ _ _ => .pure (by decide)
  · rw [if_neg hp]
    exact .unexpected (by decide)

theorem descends_term (ih : ExpressionDescents error bound) :
    Descends .term [] coming error (term (bound + 1)) := by
  rw [term]
  refine .call (by decide) descends_unaryOp fun negated _ rest _ => ?_
  refine .call (by decide) (ih.factor rest) fun v _ rest' _ => ?_
  cases negated with
  | true =>
    rw [if_pos rfl]
    exact .onGenerator_bind (Generator.modest_compute ..) fun answer => .trust_bind fun v =>
      .call_last (by decide) (ih.moreFactors rest' v)
  | false =>
    rw [if_neg Bool.false_ne_true, pure_bind]
    exact .call_last (by decide) (ih.moreFactors rest' v)

theorem expressionDescents (error : Option LexError) (bound : Nat) :
    ExpressionDescents error bound := by
  induction bound with
  | zero =>
    exact ⟨fun _ => .faulty, fun _ _ => .faulty, fun _ => .faulty, fun _ => .faulty,
      fun _ _ => .faulty⟩
  | succ bound ih =>
    exact {
      expression := fun coming => by
        rw [expression]
        refine .call (by decide) (ih.term coming) fun left _ rest _ => ?_
        exact .call_last (by decide) (ih.otherTerms rest left)
      otherTerms := fun coming left => by
        rw [otherTerms]
        refine .peekArithmetic_bind Arithmetic.additive (by decide)
          (fun t rest op hop hcoming ht => ?_) (.pure (by decide))
        subst hcoming
        fin_cases hop <;>
        exact .operation_bind ht (by decide) (by decide) (ih.term rest) fun v rest' =>
          .call_last (by decide) (ih.otherTerms rest' v)
      term := fun coming => descends_term ih
      factor := fun coming => descends_factor ih
      moreFactors := fun coming left => by
        rw [moreFactors]
        refine .peekArithmetic_bind Arithmetic.multiplicative (by decide)
          (fun t rest op hop hcoming ht => ?_) (.pure (by decide))
        subst hcoming
        fin_cases hop <;>
        exact .operation_bind ht (by decide) (by decide) (ih.factor rest) fun v rest' =>
          .call_last (by decide) (ih.moreFactors rest' v) }

theorem descends_relation : Descends .relation [] coming error relation := by
  rw [relation]
  refine .consume_bind (by decide) (fun _ => .ended (by decide)) fun t rest _ => ?_
  dsimp only
  by_cases hk : t.kind = .relational
  · rw [if_pos hk]
    cases ho : Operator.ofRelational? t.text with
    | none => exact .unexpected (by decide)
    | some o =>
      obtain ⟨c, -, hterminal⟩ := (Token.ofRelational?_eq_some_iff hk).mp ho
      exact .shift hterminal (.pure (by cases c <;> decide))
  · rw [if_neg hk]
    exact .unexpected (by decide)

theorem descends_condition : Descends .condition [] coming error (condition bound) := by
  have rules := expressionDescents error bound
  rw [condition]
  refine .call (by decide) (rules.expression coming) fun left _ rest _ => ?_
  refine .call (by decide) descends_relation fun op _ rest' _ => ?_
  refine .call (by decide) (rules.expression rest') fun right _ _ _ => ?_
  refine .onGenerator_bind (Generator.modest_compare op left right) fun answer => ?_
  rw [← bind_pure (trust answer)]
  exact .trust_bind fun _ => .pure (by decide)

/-! ## 2. Commands -/

/-- The rules for commands descend, whatever their recursion bound. The two last ones are called
when the first word of a command has been read. -/
structure CommandDescents (error : Option LexError) (bound : Nat) : Prop where
  commands : ∀ coming, Descends .commands [] coming error (commands bound)
  moreCommands : ∀ coming, Descends .moreCommands [] coming error (moreCommands bound)
  command : ∀ coming, Descends .command [] coming error (command bound)
  conditional : ∀ coming,
    Descends .command [.terminal (.word .ifWord)] coming error (conditional bound)
  loop : ∀ coming, Descends .command [.terminal (.word .whileWord)] coming error (loop bound)

/-- A variable between parentheses, behind the word `read` or `write`. -/
theorem Descends.parenthesizedVariable_bind {k : Keyword} {f : Token → Analyzer β}
    (hk : k = .readWord ∨ k = .writeWord)
    (h : ∀ t rest,
      Descends .command [.terminal (.word k), .terminal (.mark .leftParen), .terminal .identifier,
      .terminal (.mark .rightParen)] rest error (f t)) :
    Descends .command [.terminal (.word k)] coming error (parenthesizedVariable >>= f) := by
  rw [parenthesizedVariable, bind_assoc]
  refine .expect_bind (a := .mark .leftParen) rfl (by rcases hk with rfl | rfl <;> decide)
    fun _ _ _ => ?_
  rw [bind_assoc]
  refine .expectIdentifier_bind (by rcases hk with rfl | rfl <;> decide) fun t rest _ ht => ?_
  rw [bind_assoc]
  refine .reference_bind (by rcases hk with rfl | rfl <;> decide) fun _ => .identifier ht ?_
  rw [bind_assoc]
  refine .expect_bind (a := .mark .rightParen) rfl (by rcases hk with rfl | rfl <;> decide)
    fun _ _ _ => ?_
  exact h t _

theorem grasps_assignment {t : Token} {rest : List Token} (ht : t.kind = .identifier) :
    Grasps .command [] t rest error (assignment bound t) := by
  have rules := expressionDescents error bound
  rw [assignment]
  refine .reference_bind (by decide) fun declared => .identifier ht ?_
  refine .expect_bind (a := .becomes) rfl (by decide) fun _ rest _ => ?_
  refine .call (by decide) (rules.expression rest) fun v _ _ _ => ?_
  have hstore : ∀ coming, Descends .command
      ([.terminal .identifier] ++ [.terminal .becomes] ++ [.nonterminal .expression]) coming error
      (do let _ ← onGenerator (·.store t.text v)) := fun _ =>
    .onGenerator_bind (Generator.modest_emit _) fun _ => .pure (by decide)
  by_cases hnarrow : declared = .integer ∧ v.type = .real
  · rw [if_pos hnarrow]
    exact .report_bind (fun _ => rfl) (hstore _)
  · rw [if_neg hnarrow]
    exact hstore _

theorem descends_command (ih : CommandDescents error bound) :
    Descends .command [] coming error (command (bound + 1)) := by
  rw [command]
  refine .consume_bind (by decide) (fun _ => .ended (by decide)) fun t rest _ => ?_
  have hword : ∀ {k}, t.keyword? = some k → t.terminal? = some (.word k) :=
    Token.keyword?_eq_some_iff.mp
  have hother : Grasps .command [] t rest error
      (if t.kind = .identifier then assignment bound t else
      Analyzer.unexpected (Cause.unexpected "a command") (some t)) := by
    by_cases hi : t.kind = .identifier
    · rw [if_pos hi]
      exact grasps_assignment hi
    · rw [if_neg hi]
      exact .unexpected (by decide)
  dsimp only
  cases hk : t.keyword? with
  | none => exact hother
  | some k =>
    cases k with
    | readWord =>
      refine .shift (hword hk) (.parenthesizedVariable_bind (.inl rfl) fun t rest => ?_)
      exact .onGenerator_bind (Generator.modest_emit _) fun _ => .pure (by decide)
    | writeWord =>
      refine .shift (hword hk) (.parenthesizedVariable_bind (.inr rfl) fun t rest => ?_)
      exact .onGenerator_bind (Generator.modest_emit _) fun _ => .pure (by decide)
    | ifWord => exact .shift (hword hk) (ih.conditional rest)
    | whileWord => exact .shift (hword hk) (ih.loop rest)
    | _ => exact hother

theorem descends_elseBranch (ih : CommandDescents error bound) :
    Descends .elseBranch [] coming error
      (do if ← consumeIf (·.isKeyword .elseWord) then within .commands (commands bound)) := by
  refine .consumeIf_bind (by decide) (fun t rest _ ht => ?_) (.pure (by decide))
  exact .shift (Token.isKeyword_iff.mp ht) (.call_last (by decide) (ih.commands rest))

theorem descends_conditional (ih : CommandDescents error bound) :
    Descends .command [.terminal (.word .ifWord)] coming error (conditional (bound + 1)) := by
  rw [conditional]
  refine .call (by decide) descends_condition fun holds _ _ _ => ?_
  refine .expect_bind (a := .word .thenWord) rfl (by decide) fun _ rest _ => ?_
  refine .onGenerator_bind (Generator.modest_emitJump ..) fun answer => .trust_bind
    fun onFalse => ?_
  refine .call (by decide) (ih.commands rest) fun _ _ rest' _ => ?_
  refine .onGenerator_bind (Generator.modest_emitJump ..) fun answer => .trust_bind
    fun skipElse => ?_
  refine .patchHere_bind (by decide) ?_
  refine .call (by decide) (descends_elseBranch ih) fun _ _ _ _ => ?_
  exact .patchHere_bind (by decide) (.expect (a := .mark .dollar) rfl (by decide))

theorem descends_loop (ih : CommandDescents error bound) :
    Descends .command [.terminal (.word .whileWord)] coming error (loop (bound + 1)) := by
  rw [loop]
  refine .get_bind fun s => .report_bind (fun _ => rfl) ?_
  refine .call (by decide) descends_condition fun holds _ _ _ => ?_
  refine .expect_bind (a := .word .doWord) rfl (by decide) fun _ rest _ => ?_
  refine .onGenerator_bind (Generator.modest_emitJump ..) fun answer => .trust_bind fun exit => ?_
  refine .call (by decide) (ih.commands rest) fun _ _ rest' _ => ?_
  refine .onGenerator_bind (Generator.modest_jumpTo _) fun answer => .trust_bind fun _ => ?_
  exact .patchHere_bind (by decide) (.expect (a := .mark .dollar) rfl (by decide))

theorem descends_moreCommands (ih : CommandDescents error bound) :
    Descends .moreCommands [] coming error (moreCommands (bound + 1)) := by
  rw [moreCommands]
  refine .consumeIf_bind (by decide) (fun t rest _ ht => ?_) ?_
  · exact .semicolon (of_decide_eq_true ht) (.call_last (by decide) (ih.commands rest))
  · rw [if_neg Bool.false_ne_true]
    refine .peek_bind (by decide) ?_
    cases coming.head?.any startsCommand with
    | true => exact .call_last (by decide) (ih.commands coming)
    | false => exact .pure (by decide)

theorem commandDescents (error : Option LexError) (bound : Nat) : CommandDescents error bound := by
  induction bound with
  | zero =>
    exact ⟨fun _ => .faulty, fun _ => .faulty, fun _ => .faulty, fun _ => .faulty, fun _ => .faulty⟩
  | succ bound ih =>
    refine ⟨fun coming => ?_, fun _ => descends_moreCommands ih, fun _ => descends_command ih,
      fun _ => descends_conditional ih, fun _ => descends_loop ih⟩
    rw [commands]
    refine .call (by decide) (ih.command coming) fun _ _ rest _ => ?_
    exact .call_last (by decide) (ih.moreCommands rest)

/-! ## 3. Declarations -/

theorem descends_varType : Descends .varType [] coming error varType := by
  rw [varType]
  refine .consume_bind (by decide) (fun _ => .ended (by decide)) fun t rest _ => ?_
  dsimp only
  cases hd : declaredType? t with
  | none => exact .unexpected (by decide)
  | some type =>
    refine .shift (declaredType?_eq_some_iff.mp hd) (.pure ?_)
    cases type <;> decide

theorem descends_variableNames (type : VarType) (coming : List Token) :
    Descends .variableNames [] coming error (variableNames bound type) := by
  induction bound generalizing coming with
  | zero => exact .faulty
  | succ bound ih =>
    rw [variableNames]
    refine .expectIdentifier_bind (by decide) fun t rest _ ht => ?_
    refine .declare_bind (by decide) (.identifier ht (.call_last (by decide) ?_))
    refine .consumeIf_bind (by decide) (fun t' rest' _ ht' => ?_) (.pure (by decide))
    exact .shift ((Token.is_iff (a := .mark .comma) rfl).mp ht') (.call_last (by decide) (ih rest'))

theorem descends_varDeclaration :
    Descends .varDeclaration [] coming error (varDeclaration bound) := by
  rw [varDeclaration]
  refine .call (by decide) descends_varType fun type _ _ _ => ?_
  refine .expect_bind (a := .colon) rfl (by decide) fun _ rest _ => ?_
  exact .call_last (by decide) (descends_variableNames type rest)

theorem descends_declarations (coming : List Token) :
    Descends .declarations [] coming error (declarations bound) := by
  induction bound generalizing coming with
  | zero => exact .faulty
  | succ bound ih =>
    rw [declarations]
    refine .peek_bind (by decide) ?_
    cases (coming.head?.bind declaredType?).isSome with
    | false => exact .pure (by decide)
    | true =>
      refine .call (by decide) descends_varDeclaration fun _ _ rest _ => .call_last (by decide) ?_
      refine .consumeIf_bind (by decide) (fun t rest' _ ht => ?_) (.pure (by decide))
      exact .semicolon (of_decide_eq_true ht) (.call_last (by decide) (ih rest'))

/-! ## 4. Programs -/

theorem descends_body : Descends .body [] coming error (body bound) := by
  rw [body]
  refine .call (by decide) (descends_declarations coming) fun _ _ _ _ => ?_
  refine .expect_bind (a := .word .beginWord) rfl (by decide) fun _ rest _ => ?_
  refine .call (by decide) ((commandDescents error bound).commands rest) fun _ _ _ _ => ?_
  exact .expect (a := .word .endWord) rfl (by decide)

theorem descends_program : Descends .program [] coming error (program bound) := by
  rw [program]
  refine .expect_bind (a := .word .programWord) rfl (by decide) fun _ _ _ => ?_
  refine .expectIdentifier_bind (by decide) fun t rest _ ht => .identifier ht ?_
  refine .report_bind (fun _ => rfl) (.call (by decide) descends_body fun _ _ _ _ => ?_)
  exact .expect (a := .mark .point) rfl (by decide)

end

/-! ## 5. Whole sources -/

/-- The tokens have been read, and the categories are open: the tokens are a program and nothing is
open, or they lead down the path of the open categories. -/
inductive LeavesOpen (us : List Token) : List NonTerminal → Prop
  | nothing (whole : Derivable us) : LeavesOpen us []
  | path {out : List (Item Terminal NonTerminal)} {path : List NonTerminal}
      (mem : ⟨.program, out⟩ ∈ rules) (leads : Leads out path us) : LeavesOpen us (.program :: path)

/-- How a run on a source ends, as far as its log and the open categories go. -/
inductive Surveyed (x : Stream) : EStateM.Result Stop AnalysisState Analysis → Prop
  | accepted {a : Analysis} {s : AnalysisState} (orderly : Orderly s) (closed : s.inside = []) :
      Surveyed x (.ok a s)
  | rejected {cause : Cause} {span : Option Span} {s : AnalysisState} {us rest : List Token}
      (nested : Nested s) (tokens : x.tokens = us ++ rest) (leaves : LeavesOpen us s.inside.reverse)
      (blames : Blames rest x.error cause span) :
      Surveyed x (.error (.rejected cause span s.inside.reverse) s)
  | fault {fault : Fault} {s : AnalysisState} (nested : Nested s) :
      Surveyed x (.error (.fault fault) s)

theorem surveyed_wholeSource {x : Stream} {s : AnalysisState} {bound : Nat}
    (hplain : PlainSemicolons x.tokens)
    (hs : Orderly s) (hclosed : s.inside = []) (hstream : s.lexer.stream = x) :
    Surveyed x (wholeSource bound s) := by
  obtain ⟨coming, error⟩ := x
  rw [wholeSource]
  rcases descends_program.within_cases hplain hs hstream with
    ⟨_, s, us, rest, hrun, hs, hinside, hstream, tokens, spells⟩ |
    ⟨cause, span, s, out, path, us, rest, hrun, nested, hinside, tokens, mem, leads, blames⟩ |
    ⟨x, s, hrun, nested⟩
  · -- the program has been left, so what is found behind it is found with nothing open
    rw [run_bind_ok hrun, Analyzer.consume, bind_assoc]
    have hstack : s.inside.reverse = [] := by rw [hinside, hclosed, List.reverse_nil]
    have hleaves : LeavesOpen us s.inside.reverse := by
      rw [hstack]
      exact .nothing (derivable_iff.mpr spells)
    cases rest with
    | cons t rest =>
      obtain ⟨l, events, hnext, -, -, -, hevents⟩ := Lexer.next_of_cons hstream
      rw [run_bind_ok (onLexer_run hnext)]
      exact .rejected (hs.consumed (l := l) hevents).nested tokens hleaves (.token rfl)
    | nil =>
      cases error with
      | some e =>
        obtain ⟨l, hnext⟩ := Lexer.next_of_error hstream
        rw [run_bind_ok (onLexer_run hnext)]
        exact .rejected (hs.silent (l := l)).nested tokens hleaves (.lexical rfl rfl)
      | none =>
        obtain ⟨l, hnext, -⟩ := Lexer.next_of_end hstream
        rw [run_bind_ok (onLexer_run hnext)]
        dsimp only
        obtain ⟨s', hhalt, hs', hinside'⟩ : ∃ s', onGenerator (·.halt)
            { s with lexer := l, log := s.log ++ ([] : List Event) } =
              .ok s.generator.nextIndex s' ∧
              Orderly s' ∧ s'.inside = s.inside :=
          ⟨_, rfl, (hs.silent (l := l)).onGenerator (Generator.modest_emit _), rfl⟩
        rw [pure_bind]
        dsimp only
        rw [run_bind_ok hhalt, run_bind_ok get_run]
        rw [← hinside'] at hstack hleaves hinside
        cases s'.generator.finish with
        | ok program => exact .accepted hs' (hinside.trans hclosed)
        | error jumps =>
          rw [← hstack]
          exact .rejected hs'.nested tokens hleaves .internal
  · rw [run_bind_error hrun]
    have hstack : s.inside.reverse = .program :: path := by simp [hinside, hclosed]
    exact .rejected nested tokens (hstack ▸ .path mem leads) blames
  · rw [run_bind_error hrun]
    exact .fault nested

theorem surveyed_run (source : String) : Surveyed (sourceStream source) (Analysis.run source) :=
  surveyed_wholeSource (scanned source).semicolons
    ⟨rfl, show 0 < Generator.tempLimit by decide⟩ rfl rfl

/-- The operations of an accepted source have their temporaries. -/
theorem operatorCount_lt_of_ok {source : String} {a : Analysis}
    (h : (Analysis.ofSource source).1 = .ok a) :
    operatorCount (sourceStream source).tokens < Generator.tempLimit := by
  obtain ⟨s, hrun⟩ := exists_run_of_ok h
  obtain ⟨tree, -, htemps, -⟩ := exists_accepted_of_run hrun
  have hsurveyed := surveyed_run source
  rw [hrun] at hsurveyed
  cases hsurveyed with
  | accepted orderly closed =>
    rw [← htemps]
    exact orderly.temps

/-! ## 6. Where a rejection is -/

/-- No two tokens of a source have the same span. -/
theorem eq_of_span_eq {source : String} {us us' rest rest' : List Token} {t t' : Token}
    (h : (sourceStream source).tokens = us ++ t :: rest)
    (h' : (sourceStream source).tokens = us' ++ t' :: rest') (hspan : t.span = t'.span) :
    us = us' := by
  have hlt : us.length < ((sourceStream source).tokens.map (·.span.offset)).length := by simp [h]
  have hlength : us.length = us'.length := by
    refine (List.getElem?_inj hlt (nodup_offsets source)).mp ?_
    rw [List.getElem?_map, List.getElem?_map]
    nth_rewrite 1 [h]
    rw [h']
    simp [hspan]
  rw [h] at h'
  exact (List.append_inj h' hlength).1

theorem exists_resolve_of_locate {source : String} {cause : Cause} {span : Span}
    {stack : List NonTerminal}
    {d : Diagnostic} (h : (Stop.rejected cause (some span) stack).locate source = .rejected d) :
    ∃ location,
      Location.resolve source span = .ok location ∧ d = ⟨cause, some location, stack⟩ := by
  cases hresolve : Location.resolve source span with
  | error x => simp [Stop.locate, hresolve] at h
  | ok location =>
    rw [locate_of_resolve hresolve] at h
    cases h
    exact ⟨location, rfl, rfl⟩

theorem stack_of_locate {source : String} {cause : Cause} {span : Option Span}
    {stack : List NonTerminal}
    {d : Diagnostic} (h : (Stop.rejected cause span stack).locate source = .rejected d) :
    d.stack = stack := by
  cases span with
  | none =>
    cases h
    rfl
  | some span =>
    obtain ⟨location, -, rfl⟩ := exists_resolve_of_locate h
    rfl

/-- A complaint that can be located is reported at its point. -/
theorem Complaint.reported_of_locate {source : String} {π : Point} {p : Products} {stop : Stop}
    {d : Diagnostic} (hc : Complaint (scanned source) π stop) (h : Sound (scanned source) π p)
    (hd : stop.locate source = .rejected d) :
    (sourceStream source).Reported source π.seen.length d := by
  cases hc with
  | lexical ends fails =>
    obtain ⟨location, hl, rfl⟩ := exists_resolve_of_locate hd
    rw [h.seen_eq ends]
    exact .lexical rfl fails hl
  | unexpected next stuck =>
    obtain ⟨location, hl, rfl⟩ := exists_resolve_of_locate hd
    obtain ⟨htoken, -, hthis⟩ := h.next next
    exact .unexpected htoken (hthis ▸ h.not_viable_concat next stuck) hl
  | ended ends atEnd stuck =>
    rw [h.seen_eq ends] at hd ⊢
    cases hlast : (sourceStream source).tokens.getLast? with
    | none =>
      have hnil : (sourceStream source).tokens = [] := List.getLast?_eq_none_iff.mp hlast
      rw [show (scanned source).tokens = [] from hnil] at hd ⊢
      cases hd
      exact .empty rfl atEnd hnil
    | some t =>
      rw [show (scanned source).tokens.getLast? = some t from hlast] at hd
      obtain ⟨location, hl, rfl⟩ := exists_resolve_of_locate hd
      exact .ended rfl atEnd hlast hl
  | redeclared next expects again =>
    obtain ⟨location, hl, rfl⟩ := exists_resolve_of_locate hd
    obtain ⟨htoken, hbefore, hthis⟩ := h.next next
    have hviable := h.viable_concat expects (Token.terminal?_class_iff.1.mpr again.1)
    rw [← hthis] at hviable
    rw [← hbefore] at again
    exact .redeclared htoken hviable again hl
  | undeclared next expects unknown =>
    obtain ⟨location, hl, rfl⟩ := exists_resolve_of_locate hd
    obtain ⟨htoken, hbefore, hthis⟩ := h.next next
    have hviable := h.viable_concat expects (Token.terminal?_class_iff.1.mpr unknown.1)
    rw [← hthis] at hviable
    rw [← hbefore] at unknown
    exact .undeclared htoken hviable unknown hl
  | overflow many => cases hd
  | misplaced mem far => cases hd

/-- A complaint and a blame for the same stop stand at the same place. -/
theorem Complaint.seen_eq {source : String} {π : Point} {p : Products} {cause : Cause}
    {span : Option Span} {stack : List NonTerminal} {us rest : List Token}
    (hc : Complaint (scanned source) π (.rejected cause span stack))
    (h : Sound (scanned source) π p) (htokens : (sourceStream source).tokens = us ++ rest)
    (hb : Blames rest (sourceStream source).error cause span) : us = π.seen := by
  have hseen : (sourceStream source).tokens = π.seen ++ π.coming := h.tokens
  have hend : rest = [] → π.coming = [] → us = π.seen := by
    rintro rfl hcoming
    rw [hcoming, List.append_nil] at hseen
    rw [List.append_nil] at htokens
    exact htokens.symm.trans hseen
  have htoken : ∀ {t t' : Token} {rs rs' : List Token}, rest = t :: rs → π.coming = t' :: rs' →
      t.span = t'.span → us = π.seen := by
    rintro t t' rs rs' rfl hcoming hspan
    exact eq_of_span_eq htokens (hcoming ▸ hseen) hspan
  cases hc with
  | lexical ends fails =>
    cases hb with
    | lexical ends' => exact hend ends' ends
  | unexpected next stuck =>
    cases hb with
    | token next' => exact htoken next' next rfl
  | ended ends atEnd stuck =>
    cases hb with
    | ended ends' => exact hend ends' ends
  | redeclared next expects again =>
    generalize hspan : some _ = o at hb
    cases hb with
    | name next' => exact htoken next' next (Option.some.inj hspan).symm
  | undeclared next expects unknown =>
    generalize hspan : some _ = o at hb
    cases hb with
    | name next' => exact htoken next' next (Option.some.inj hspan).symm

theorem Complaint.leavesOpen {source : String} {π : Point} {p : Products} {cause : Cause}
    {span : Option Span} {stack : List NonTerminal} {s : AnalysisState}
    (hc : Complaint (scanned source) π (.rejected cause span stack))
    (h : Sound (scanned source) π p)
    (hs : Surveyed (sourceStream source) (.error (.rejected cause span stack) s)) :
    LeavesOpen π.seen stack := by
  cases hs with
  | rejected nested tokens leaves blames =>
    obtain rfl := hc.seen_eq h tokens blames
    exact leaves

/-- **What a rejection leaves open**, at the position that it reports. -/
theorem exists_leavesOpen {source : String} {d : Diagnostic}
    (h : (Analysis.ofSource source).1 = .error (.rejected d)) :
    ∃ k, (sourceStream source).Reported source k d ∧
      LeavesOpen ((sourceStream source).tokens.take k) d.stack := by
  have hsurveyed := surveyed_run source
  rcases run_outcome source with ⟨a, s, tree, hrun, -⟩ | ⟨stop, s, hrun, π, p, hsound, hcomplaint⟩
  · rw [ofSource_of_ok hrun] at h
    cases h
  · rw [ofSource_of_error hrun] at h
    rw [hrun] at hsurveyed
    have hd := Except.error.inj h
    refine ⟨_, hcomplaint.reported_of_locate hsound hd, ?_⟩
    cases stop with
    | rejected cause span stack =>
      rw [stack_of_locate hd,
        show (sourceStream source).tokens = π.seen ++ π.coming from hsound.tokens, List.take_left]
      exact hcomplaint.leavesOpen hsound hsurveyed
    | fault x => cases hd

/-! ## 7. The derivation path -/

theorem unfinished_of_nested {s : AnalysisState} (h : Nested s) :
    unfinished s.log.toList = some s.inside.reverse := by
  rw [unfinished, show s.log.toList.foldlM Event.mark [] = some s.inside from h]
  rfl

/-- **The log of an analysis is properly nested**, and what it leaves open is what the diagnostic
lists. -/
theorem exists_unfinished (source : String) :
    ∃ opened, unfinished (Analysis.ofSource source).2 = some opened ∧
      (∀ a, (Analysis.ofSource source).1 = .ok a → opened = []) ∧
      ∀ d, (Analysis.ofSource source).1 = .error (.rejected d) → d.stack = opened := by
  have hsurveyed := surveyed_run source
  unfold Analysis.ofSource
  cases hrun : Analysis.run source with
  | ok a s =>
    rw [hrun] at hsurveyed
    cases hsurveyed with
    | accepted orderly closed =>
      refine ⟨_, unfinished_of_nested orderly.nested, fun _ _ => ?_, fun d hd => by cases hd⟩
      rw [closed, List.reverse_nil]
  | error stop s =>
    rw [hrun] at hsurveyed
    cases hsurveyed with
    | rejected nested tokens leaves blames =>
      refine ⟨_, unfinished_of_nested nested, (fun a ha => by cases ha), fun d hd => ?_⟩
      exact stack_of_locate (Except.error.inj hd)
    | fault nested =>
      exact ⟨_, unfinished_of_nested nested, (fun a ha => by cases ha), fun d hd => by cases hd⟩

/-- The terminal `.` stands at the end of a program and nowhere else. -/
theorem closed_without_point :
    Closed rules fun X => X ≠ .terminal (.mark .point) ∧ X ≠ .nonterminal .program := by
  unfold Closed
  decide

/-- Behind the final point nothing is open, and before it something is. -/
theorem LeavesOpen.eq_nil_iff {us : List Token} {stack : List NonTerminal}
    (h : LeavesOpen us stack) : stack = [] ↔ Derivable us := by
  cases h with
  | nothing whole => exact iff_of_true rfl whole
  | @path out path mem leads =>
    refine iff_of_false (List.cons_ne_nil _ _) fun hderivable => ?_
    obtain ⟨word, hhalfway, hus⟩ := leads
    obtain ⟨word', hyields, hus'⟩ := derivable_iff.mp hderivable
    obtain rfl : word = word' :=
      List.map_injective_iff.mpr (Option.some_injective _) (hus.symm.trans hus')
    have hprogram : ∀ r ∈ rules, r.input = .program → r.output = [.terminal (.word .programWord),
        .terminal .identifier, .nonterminal .body] ++ [.terminal (.mark .point)] := by decide
    have hout := hprogram _ mem rfl
    dsimp only at hout
    rw [hout] at hhalfway
    -- there is no point in what has been read, and there is one in every program
    have hpoint := hhalfway.forall_of_closed_concat closed_without_point (by decide) (.mark .point)
    generalize hform : [Symbol.nonterminal NonTerminal.program] = form at hyields
    cases hyields with
    | nil => cases hform
    | terminal rest => cases hform
    | @rule r form word mem' rest =>
      obtain ⟨hinput, -⟩ := List.cons.inj hform
      rw [hprogram r mem' (Symbol.nonterminal.inj hinput).symm] at rest
      exact (hpoint (rest.mem_of_mem (by simp))).1 rfl

/-- The open categories begin with `program`, and each one occurs in a right side of the one before
it. -/
theorem LeavesOpen.isChain {us : List Token} {stack : List NonTerminal} (h : LeavesOpen us stack) :
    (stack ≠ [] → stack.head? = some .program) ∧ stack.IsChain (Occurs rules) := by
  cases h with
  | nothing whole => exact ⟨fun h => absurd rfl h, .nil⟩
  | path mem leads =>
    obtain ⟨word, hhalfway, -⟩ := leads
    have hpath : Halfway rules [.nonterminal .program] _ word := .inside mem hhalfway
    exact ⟨fun _ => rfl, hpath.isChain.1⟩

namespace Analysis

/-- **The open categories of a rejection are the live path of the derivation.** The log of an
analysis is properly nested. Nothing is left open in it if the source is accepted, and if it is
rejected, the diagnostic lists what is left open: the path that the tokens before the reported
position lead down. -/
theorem stack_is_derivation_path (source : String) :
    ∃ opened, unfinished (ofSource source).2 = some opened ∧
      (∀ a, (ofSource source).1 = .ok a → opened = []) ∧
      ∀ d, (ofSource source).1 = .error (.rejected d) →
        d.stack = opened ∧
        ∃ k, (sourceStream source).Reported source k d ∧
          LeavesOpen ((sourceStream source).tokens.take k) opened ∧
          (opened = [] ↔ Derivable ((sourceStream source).tokens.take k)) ∧
          (opened ≠ [] → opened.head? = some .program) ∧
          opened.IsChain (Occurs rules) := by
  obtain ⟨opened, hlog, haccepted, hrejected⟩ := exists_unfinished source
  refine ⟨opened, hlog, haccepted, fun d hd => ?_⟩
  obtain rfl := hrejected d hd
  obtain ⟨k, hreported, hleaves⟩ := exists_leavesOpen hd
  exact ⟨rfl, k, hreported, hleaves, hleaves.eq_nil_iff, hleaves.isChain⟩

/-- The parenthesis in the condition is not closed. -/
def openParenthesis : String :=
  "program p integer: a begin if (a + 2 > a then read(a) $ end."

theorem stack_is_derivation_path_of_openParenthesis :
    ∃ d k, (ofSource openParenthesis).1 = .error (.rejected d) ∧
      unfinished (ofSource openParenthesis).2 = some d.stack ∧
      d.stack = [.program, .body, .commands, .command, .condition, .expression, .term, .factor] ∧
      (sourceStream openParenthesis).Reported openParenthesis k d ∧
      LeavesOpen ((sourceStream openParenthesis).tokens.take k) d.stack ∧
      ¬ Derivable ((sourceStream openParenthesis).tokens.take k) ∧
      d.stack.IsChain (Occurs rules) := by
  obtain ⟨d, hd, hstack⟩ : ∃ d, (ofSource openParenthesis).1 = .error (.rejected d) ∧
      d.stack = [.program, .body, .commands, .command, .condition, .expression, .term, .factor] :=
    exists_of_map_rejection? (by decide +kernel)
  obtain ⟨opened, hlog, -, hrejected⟩ := stack_is_derivation_path openParenthesis
  obtain ⟨rfl, k, hreported, hleaves, hempty, -, hchain⟩ := hrejected d hd
  refine ⟨d, k, hd, hlog, hstack, hreported, hleaves, fun hderivable => ?_, hchain⟩
  rw [hempty.mpr hderivable] at hstack
  cases hstack

end Analysis

end ThreeAddress
