import ThreeAddress.Proofs.Analysis.Expressions

/-!
# The rules for commands

What the rules for commands do, by induction on their recursion bound. Like those for expressions,
they read exactly the tokens of one parse tree. The code that they emit is the code of its meaning:
a jump that is emitted before its target is known has been patched by the time its command ends, and
then the target is the one that the lengths of the parts give (`Reads.patch_bind`).
-/

namespace ThreeAddress

open Grammar Analyzer

variable {β : Type} {x : Scanned} {p : Products}
  {form : List (ContextFreeRule.Item Terminal NonTerminal)} {due bound : Nat}
  {seen coming rest : List Token} {t : Token} {Q : Point → β → Products → Prop}

/-! ## 1. What a statement makes -/

namespace Products

/-- What has been made when the code of a statement has been emitted. -/
def execute (p : Products) (s : Statement) : Products :=
  { p.extend (s.code p.quads.length (p.temps + 1)) s.operations with
    narrowed := p.narrowed ++ s.narrowings p.declared }

theorem execute_skip (p : Products) : p.execute .skip = p := by
  simp [execute, extend, Statement.code, Statement.operations, Statement.narrowings]

theorem execute_read (p : Products) (name : String) :
    p.execute (.read name) = p.emit { op := .read, result := some (.var name) } := by
  simp [execute, emit, extend, Statement.code, Statement.operations, Statement.narrowings]

theorem execute_write (p : Products) (name : String) :
    p.execute (.write name) = p.emit { op := .write, arg1 := some (.var name) } := by
  simp [execute, emit, extend, Statement.code, Statement.operations, Statement.narrowings]

theorem execute_seq (p : Products) (a b : Statement) :
    (p.execute a).execute b = p.execute (.seq a b) := by
  simp [execute, extend, declared, Statement.code, Statement.operations, Statement.narrowings,
    Nat.add_assoc, Nat.add_comm, Nat.add_left_comm]

/-- More of everything but variables. -/
def grow (p : Products) (code : List Quad) (pending temps : Nat) (narrowed : List String) :
    Products where
  symbols := p.symbols
  quads := p.quads ++ code
  pending := p.pending + pending
  temps := p.temps + temps
  narrowed := p.narrowed ++ narrowed

theorem grow_grow (p : Products) (code code' : List Quad) (pending pending' temps temps' : Nat)
    (narrowed narrowed' : List String) :
    (p.grow code pending temps narrowed).grow code' pending' temps' narrowed' =
      p.grow (code ++ code') (pending + pending') (temps + temps') (narrowed ++ narrowed') := by
  simp [grow, Nat.add_assoc]

theorem extend_eq_grow (p : Products) (code : List Quad) (temps : Nat) :
    p.extend code temps = p.grow code 0 temps [] := by
  simp [extend, grow]

theorem emit_eq_grow (p : Products) (quad : Quad) : p.emit quad = p.grow [quad] 0 0 [] := by
  simp [emit, extend, grow]

theorem wait_eq_grow (p : Products) (op : Operator) (condition : Option Operand) (hole : Nat) :
    p.wait op condition hole = p.grow [.jump op condition (.pending hole)] 1 0 [] := by
  simp [wait, emit, extend, grow]

@[simp] theorem length_quads_grow (p : Products) (code : List Quad) (pending temps : Nat)
    (narrowed : List String) :
    (p.grow code pending temps narrowed).quads.length = p.quads.length + code.length :=
  List.length_append

@[simp] theorem temps_grow (p : Products) (code : List Quad) (pending temps : Nat)
    (narrowed : List String) : (p.grow code pending temps narrowed).temps = p.temps + temps :=
  rfl

@[simp] theorem declared_grow (p : Products) (code : List Quad) (pending temps : Nat)
    (narrowed : List String) : (p.grow code pending temps narrowed).declared = p.declared :=
  rfl

theorem execute_eq_grow (p : Products) (s : Statement) :
    p.execute s =
      p.grow (s.code p.quads.length (p.temps + 1)) 0 s.operations (s.narrowings p.declared) := by
  simp [execute, extend, grow]

/-- A test, a jump that waits in case it fails, and a statement. -/
theorem branch_eq_grow (p : Products) (t : Test) (condition : Option Operand) (hole : Nat)
    (a : Statement) :
    ((p.extend (t.code (p.temps + 1)) t.operations).wait .jumpIfFalse condition hole).execute a =
      p.grow (t.code (p.temps + 1) ++ .jump .jumpIfFalse condition (.pending hole) ::
        a.code (p.quads.length + t.operations + 1) (p.temps + 1 + t.operations)) (0 + 1)
        (t.operations + a.operations) (a.narrowings p.declared) := by
  simp [extend_eq_grow, wait_eq_grow, execute_eq_grow, grow_grow, Nat.add_assoc,
    Nat.add_comm t.operations 1]

end Products

theorem Computes.assign {name : String} {type : VarType} {e : Expression} {v : Value}
    {p' : Products} (hv : Computes p e v p') (hname : p.declared name = some type) :
    p.execute (.assign name e) =
      { p' with narrowed := p'.narrowed ++
          if type = VarType.integer ∧ v.type = VarType.real then [name] else [] }.emit
        { op := .store, arg1 := some v.operand, result := some (.var name) } := by
  obtain ⟨ho, ht, rfl⟩ := hv
  simp [Products.execute, Products.emit, Products.extend, Statement.code, Statement.operations,
    Statement.narrowings, hname, ht, ho]

/-! ## 2. Commands without commands inside -/

theorem Reads.parenthesizedVariable_bind {f : Token → Analyzer β} (hc : commandPart seen ≠ [])
    (h : ∀ t₁ t₂ t₃ rest, coming = t₁ :: t₂ :: t₃ :: rest →
      [t₁, t₂, t₃].map Token.lexeme =
        [Mark.leftParen.lexeme, (.identifier, t₂.text), Mark.rightParen.lexeme] →
      Reads x ⟨form, due, seen ++ [t₁, t₂, t₃], rest⟩ p (f t₂) Q) :
    Reads x ⟨.terminal (.mark .leftParen) :: .terminal .identifier ::
      .terminal (.mark .rightParen) :: form, due, seen, coming⟩ p
      (parenthesizedVariable >>= f) Q := by
  simp only [parenthesizedVariable, bind_assoc, pure_bind]
  refine .expect_bind (a := .mark .leftParen) rfl rfl fun t₁ rest₁ hcoming ht₁ => ?_
  refine .expectIdentifier_bind fun t₂ rest₂ hrest₁ ht₂ => ?_
  refine .reference_bind ht₂ (commandPart_append_ne_nil hc _) fun _ _ => ?_
  refine .expect_bind (a := .mark .rightParen) rfl rfl fun t₃ rest₃ hrest₂ ht₃ => ?_
  subst hcoming hrest₁ hrest₂
  have := h t₁ t₂ t₃ rest₃ rfl (by simp [ht₁, ht₃, Token.lexeme_eq ht₂, Mark.lexeme, Mark.text])
  simpa using this

theorem holding_assignment (hk : t.kind = .identifier) (hc : commandPart seen ≠ [])
    (hb : 4 * rest.length ≤ bound) :
    Holding x (.terminal .identifier :: .terminal .becomes :: .nonterminal .expression :: form) due
      seen t rest p (assignment bound t)
      (Recognized .command form due seen (t :: rest) fun tree _ p' =>
        p' = p.execute tree.meaning) := by
  rw [assignment]
  refine .reference_bind hk hc fun type htype => ?_
  refine .expect_bind (a := .becomes) rfl rfl fun t' rest' hrest ht' => ?_
  subst hrest
  rw [List.length_cons] at hb
  refine .call ((expressionRules x bound).expression
    (commandPart_append_ne_nil (commandPart_append_ne_nil hc _) _) (by omega))
    fun u rest'' value v p₁ hrest' hvalue hv => ?_
  subst hrest'
  have hassign := hv.assign htype
  have hlexemes : (t :: t' :: u).map Token.lexeme = (Tree.assign t.text value).lexemes := by
    simp [Tree.lexemes, Token.lexeme_eq hk, ht', hvalue]
  by_cases hn : type = .integer ∧ v.type = .real
  · rw [if_pos hn] at hassign
    rw [if_pos hn]
    refine .narrowing_bind (.emit_bind fun _ => .pure ?_)
    exact ⟨t :: t' :: u, rest'', .assign t.text value, by simp, by simp, hlexemes, hassign.symm⟩
  · rw [if_neg hn, List.append_nil] at hassign
    rw [if_neg hn]
    refine .emit_bind fun _ => .pure ?_
    exact ⟨t :: t' :: u, rest'', .assign t.text value, by simp, by simp, hlexemes, hassign.symm⟩

/-! ## 3. The rules, with what their calls do as hypotheses -/

/-- What the rules for commands do when their recursion bound is enough for the tokens to come. -/
structure CommandRules (x : Scanned) (bound : Nat) : Prop where
  commands : ∀ {form due seen coming p}, commandPart seen ≠ [] → 4 * coming.length + 2 ≤ bound →
    Reads x ⟨.nonterminal .commands :: form, due, seen, coming⟩ p (commands bound)
      (Recognized .commands form due seen coming fun tree _ p' => p' = p.execute tree.meaning)
  moreCommands : ∀ {form due seen coming p}, commandPart seen ≠ [] → 4 * coming.length + 3 ≤ bound →
    Reads x ⟨.nonterminal .moreCommands :: form, due, seen, coming⟩ p (moreCommands bound)
      (Recognized .moreCommands form due seen coming fun tree _ p' => p' = p.execute tree.meaning)
  command : ∀ {form due seen coming p}, commandPart seen ≠ [] → 4 * coming.length + 1 ≤ bound →
    Reads x ⟨.nonterminal .command :: form, due, seen, coming⟩ p (command bound)
      (Recognized .command form due seen coming fun tree _ p' => p' = p.execute tree.meaning)
  conditional : ∀ {form due seen t coming p}, commandPart seen ≠ [] →
    4 * coming.length + 4 ≤ bound → t.lexeme = Keyword.ifWord.lexeme →
    Reads x ⟨.nonterminal .condition :: .terminal (.word .thenWord) :: .nonterminal .commands ::
        .nonterminal .elseBranch :: .terminal (.mark .dollar) :: form, due, seen ++ [t], coming⟩ p
      (conditional bound)
      (Recognized .command form due seen (t :: coming) fun tree _ p' =>
        p' = p.execute tree.meaning)
  loop : ∀ {form due seen t coming p}, commandPart seen ≠ [] →
    4 * coming.length + 4 ≤ bound → t.lexeme = Keyword.whileWord.lexeme →
    Reads x ⟨.nonterminal .condition :: .terminal (.word .doWord) :: .nonterminal .commands ::
        .terminal (.mark .dollar) :: form, due, seen ++ [t], coming⟩ p (loop bound)
      (Recognized .command form due seen (t :: coming) fun tree _ p' =>
        p' = p.execute tree.meaning)

theorem reads_commands (ih : CommandRules x bound) (hc : commandPart seen ≠ [])
    (hb : 4 * coming.length + 2 ≤ bound + 1) :
    Reads x ⟨.nonterminal .commands :: form, due, seen, coming⟩ p (commands (bound + 1))
      (Recognized .commands form due seen coming fun tree _ p' => p' = p.execute tree.meaning) := by
  rw [commands]
  refine .expand rfl rfl (.call (ih.command hc (by omega))
    fun u rest first _ p₁ hcoming hfirst hp₁ => ?_)
  subst hcoming hp₁
  -- a command has a token, so the bound is enough for the rest
  have hu : 0 < u.length := by
    rw [← List.length_map, hfirst]
    exact List.length_pos_iff.mpr first.lexemes_command_ne_nil
  rw [List.length_append] at hb
  refine .within ((ih.moreCommands (commandPart_append_ne_nil hc u) (by omega)).mono ?_)
  rintro _ _ p' ⟨u', rest', more, rfl, rfl, hmore, rfl⟩
  exact ⟨u ++ u', rest', .commands first more, by simp, by simp, by simp [Tree.lexemes, *],
    p.execute_seq _ _⟩

theorem startsCommand_iff :
    startsCommand t = true ↔ ∃ a ∈ commandStarts, t.terminal? = some a := by
  simp [startsCommand, commandStarts, Token.isKeyword_iff, Token.terminal?_class_iff.1]

theorem predict_moreCommands {a : Terminal} (h : a ∈ commandStarts) :
    predict .moreCommands (some a) = some [.nonterminal .commands] := by
  fin_cases h <;> rfl

theorem reads_moreCommands (ih : CommandRules x bound) (hc : commandPart seen ≠ [])
    (hb : 4 * coming.length + 3 ≤ bound + 1) :
    Reads x ⟨.nonterminal .moreCommands :: form, due, seen, coming⟩ p (moreCommands (bound + 1))
      (Recognized .moreCommands form due seen coming fun tree _ p' =>
        p' = p.execute tree.meaning) := by
  rw [moreCommands]
  refine .consumeIf_bind (fun t rest hcoming hk => ?_) fun hsemicolon => ?_
  · subst hcoming
    rw [List.length_cons] at hb
    refine .semicolon (of_decide_eq_true hk) fun ht => ?_
    refine .expand ht rfl (.shift ht (by decide) ?_)
    rw [if_pos rfl]
    refine .within ((ih.commands (commandPart_append_ne_nil hc [t]) (by omega)).mono ?_)
    rintro _ _ p' ⟨u, rest', tree, rfl, rfl, htree, hp'⟩
    exact ⟨t :: u, rest', .separated tree, by simp, by simp [Terminal.cost],
      by simp [Tree.lexemes, (Token.terminal?_eq_some_iff rfl).mp ht, htree], hp'⟩
  · rw [if_neg Bool.false_ne_true]
    refine .peek_bind ?_
    -- there is no further command, and what follows is for others to judge
    have hend : ∀ {ts}, coming = ts →
        predict .moreCommands (ts.head?.bind Token.terminal?) = some [] →
        Reads x ⟨.nonterminal .moreCommands :: form, due, seen, coming⟩ p (pure ())
          (Recognized .moreCommands form due seen coming fun tree _ p' =>
            p' = p.execute tree.meaning) := by
      rintro ts rfl hpredict
      exact .expand rfl hpredict (.pure ⟨[], coming, .endCommands, rfl, by simp, rfl,
        p.execute_skip.symm⟩)
    cases coming with
    | nil => exact hend rfl rfl
    | cons t rest =>
      rw [List.head?_cons, Option.any_some]
      by_cases hstart : startsCommand t = true
      · obtain ⟨a, ha, ht⟩ := startsCommand_iff.mp hstart
        rw [if_pos hstart]
        refine .expand ht (predict_moreCommands ha) (.within ((ih.commands hc (by omega)).mono ?_))
        rintro _ _ p' ⟨u, rest', tree, hcoming, rfl, htree, hp'⟩
        exact ⟨u, rest', .juxtaposed tree, hcoming, rfl, htree, hp'⟩
      · rw [if_neg hstart]
        refine hend rfl (predict_of_not_first fun a ha ht => ?_)
        rcases List.mem_cons.mp ha with rfl | ha
        · have hk := congrArg Prod.fst ((Token.terminal?_eq_some_iff rfl).mp ht)
          exact of_decide_eq_false (hsemicolon t rfl) hk
        · exact hstart (startsCommand_iff.mpr ⟨a, ha, ht⟩)

theorem reads_command (ih : CommandRules x bound) (hc : commandPart seen ≠ [])
    (hb : 4 * coming.length + 1 ≤ bound + 1) :
    Reads x ⟨.nonterminal .command :: form, due, seen, coming⟩ p (command (bound + 1))
      (Recognized .command form due seen coming fun tree _ p' => p' = p.execute tree.meaning) := by
  rw [command]
  refine .consume_bind (fun _ herror => .ended herror rfl) fun t rest hcoming => ?_
  subst hcoming
  rw [List.length_cons] at hb
  have hword : ∀ {k : Keyword}, t.terminal? = some (.word k) → t.lexeme = k.lexeme :=
    (Token.terminal?_eq_some_iff rfl).mp
  dsimp only
  -- the first word tells which command it is; without one it can only be an assignment
  split
  case h_1 hk =>
    have ht := Token.keyword?_eq_some_iff.mp hk
    refine .expand ht rfl (.shift ht (by decide) ?_)
    refine .parenthesizedVariable_bind (commandPart_append_ne_nil hc [t])
      fun t₁ t₂ t₃ rest' hrest hlexemes => .emit_bind fun _ => .pure ?_
    exact ⟨[t, t₁, t₂, t₃], rest', .read t₂.text, by simp [hrest], by simp [Terminal.cost],
      by rw [List.map_cons, hlexemes, hword ht]; rfl, (p.execute_read _).symm⟩
  case h_2 hk =>
    have ht := Token.keyword?_eq_some_iff.mp hk
    refine .expand ht rfl (.shift ht (by decide) ?_)
    refine .parenthesizedVariable_bind (commandPart_append_ne_nil hc [t])
      fun t₁ t₂ t₃ rest' hrest hlexemes => .emit_bind fun _ => .pure ?_
    exact ⟨[t, t₁, t₂, t₃], rest', .write t₂.text, by simp [hrest], by simp [Terminal.cost],
      by rw [List.map_cons, hlexemes, hword ht]; rfl, (p.execute_write _).symm⟩
  case h_3 hk =>
    have ht := Token.keyword?_eq_some_iff.mp hk
    refine .expand ht rfl (.shift ht (by decide) ?_)
    exact ih.conditional hc (by omega) (hword ht)
  case h_4 hk =>
    have ht := Token.keyword?_eq_some_iff.mp hk
    refine .expand ht rfl (.shift ht (by decide) ?_)
    exact ih.loop hc (by omega) (hword ht)
  case h_5 hread hwrite hif hwhile =>
    by_cases hk : t.kind = .identifier
    · rw [if_pos hk]
      exact .expand (Token.terminal?_class_iff.1.mpr hk) rfl (holding_assignment hk hc (by omega))
    · rw [if_neg hk]
      refine .unexpected (predict_of_not_first fun a ha ht => ?_)
      fin_cases ha
      · exact hk (Token.terminal?_class_iff.1.mp ht)
      · exact hread (Token.keyword?_eq_some_iff.mpr ht)
      · exact hwrite (Token.keyword?_eq_some_iff.mpr ht)
      · exact hif (Token.keyword?_eq_some_iff.mpr ht)
      · exact hwhile (Token.keyword?_eq_some_iff.mpr ht)

/-- A jump that waits in the code made since `p` gets the next index as its target. -/
theorem Reads.patch_bind {jump : PendingJump} {op : Operator} {condition : Option Operand}
    {code before after : List Quad} {pending temps : Nat} {narrowed : List String}
    {f : Unit → Analyzer β}
    (hcode : code = before ++ .jump op condition (.pending jump.hole) :: after)
    (hindex : jump.index = p.quads.length + before.length)
    (h : Reads x ⟨form, due, seen, coming⟩
      (p.grow
        (before ++ .jump op condition
          (.line (p.quads.length + before.length + 1 + after.length)) :: after)
        pending temps narrowed)
      (f ()) Q) :
    Reads x ⟨form, due, seen, coming⟩ (p.grow code (pending + 1) temps narrowed)
      (patchHere jump >>= f) Q := by
  subst hcode
  refine .patchHere_bind (List.append_assoc ..).symm (by simpa using hindex) rfl ?_
  simpa [Products.grow, Nat.add_assoc, Nat.add_comm, Nat.add_left_comm] using h

theorem reads_elseBranch (ih : CommandRules x bound) (hc : commandPart seen ≠ [])
    (hb : 4 * coming.length ≤ bound) :
    Reads x ⟨.nonterminal .elseBranch :: form, due, seen, coming⟩ p
      (do if ← consumeIf (·.isKeyword .elseWord) then within .commands (commands bound))
      (Recognized .elseBranch form due seen coming fun tree _ p' =>
        p' = p.execute tree.meaning) := by
  refine .consumeIf_bind (fun t rest hcoming hk => ?_) fun helse => ?_
  · subst hcoming
    rw [List.length_cons] at hb
    have ht := Token.isKeyword_iff.mp hk
    refine .expand ht rfl (.shift ht (by decide) ?_)
    rw [if_pos rfl]
    refine .within ((ih.commands (commandPart_append_ne_nil hc [t]) (by omega)).mono ?_)
    rintro _ _ p' ⟨u, rest', tree, rfl, rfl, htree, hp'⟩
    exact ⟨t :: u, rest', .elseBranch tree, by simp, by simp [Terminal.cost],
      by simp [Tree.lexemes, Keyword.lexeme, (Token.terminal?_eq_some_iff rfl).mp ht, htree], hp'⟩
  · rw [if_neg Bool.false_ne_true]
    refine .expand rfl (predict_of_not_first fun a ha hterminal => ?_) (.pure ?_)
    · obtain ⟨t, ht, hword⟩ := Option.bind_eq_some_iff.mp hterminal
      rw [List.mem_singleton.mp ha] at hword
      exact Bool.false_ne_true ((helse t ht).symm.trans (Token.isKeyword_iff.mpr hword))
    · exact ⟨[], coming, .noElse, rfl, by simp, rfl, p.execute_skip.symm⟩

theorem reads_conditional (ih : CommandRules x bound) (hc : commandPart seen ≠ [])
    (hb : 4 * coming.length + 4 ≤ bound + 1) (ht : t.lexeme = Keyword.ifWord.lexeme) :
    Reads x ⟨.nonterminal .condition :: .terminal (.word .thenWord) :: .nonterminal .commands ::
        .nonterminal .elseBranch :: .terminal (.mark .dollar) :: form, due, seen ++ [t], coming⟩ p
      (conditional (bound + 1))
      (Recognized .command form due seen (t :: coming) fun tree _ p' =>
        p' = p.execute tree.meaning) := by
  have hc' : ∀ {u}, commandPart (seen ++ u) ≠ [] := commandPart_append_ne_nil hc _
  rw [conditional]
  refine .call (reads_condition hc' (by omega)) fun u₁ rest₁ test holds p₁ hcoming htest h₁ => ?_
  obtain ⟨htemp, rfl⟩ := h₁
  subst hcoming
  rw [List.length_append] at hb
  refine .expect_bind (a := .word .thenWord) rfl rfl fun t₂ rest₂ hrest₁ ht₂ => ?_
  subst hrest₁
  rw [List.length_cons] at hb
  refine .emitJump_bind rfl fun hole => ?_
  refine .call (ih.commands (commandPart_append_ne_nil (commandPart_append_ne_nil hc' _) _)
    (by omega)) fun u₃ rest₃ onTrue _ p₃ hrest₂ htrue hp₃ => ?_
  subst hrest₂ hp₃
  rw [List.length_append] at hb
  -- both jumps wait: the first one learns its target before the second branch, the other after it
  rw [Products.branch_eq_grow]
  refine .emitJump_bind rfl fun hole' => ?_
  rw [Products.wait_eq_grow, Products.grow_grow]
  refine .patch_bind (List.append_assoc ..) ?_ ?_
  · simp [Products.extend]
  refine .call (reads_elseBranch ih
    (commandPart_append_ne_nil (commandPart_append_ne_nil (commandPart_append_ne_nil hc' _) _) _)
    (by omega)) fun u₄ rest₄ onFalse _ p₄ hrest₃ hfalse hp₄ => ?_
  subst hrest₃ hp₄
  rw [Products.execute_eq_grow, Products.grow_grow]
  have hgoto : ∀ (a b c : List Quad) (j k : Quad),
      a ++ j :: (b ++ [k]) ++ c = (a ++ j :: b) ++ k :: c := by simp
  refine .patch_bind (hgoto ..) ?_ ?_
  · simp
  refine .expect (a := .mark .dollar) rfl rfl fun t₅ rest₅ hrest₄ ht₅ => ?_
  subst hrest₄
  refine ⟨t :: u₁ ++ t₂ :: (u₃ ++ (u₄ ++ [t₅])), rest₅, .conditional test onTrue onFalse, by simp,
    by simp, by simp [Tree.lexemes, Keyword.lexeme, Mark.lexeme, Mark.text, *], ?_⟩
  simp [Products.execute_eq_grow, Tree.meaning, Statement.code, Statement.operations,
    Statement.narrowings, htemp, Nat.add_assoc, Nat.add_comm, Nat.add_left_comm]

theorem reads_loop (ih : CommandRules x bound) (hc : commandPart seen ≠ [])
    (hb : 4 * coming.length + 4 ≤ bound + 1) (ht : t.lexeme = Keyword.whileWord.lexeme) :
    Reads x ⟨.nonterminal .condition :: .terminal (.word .doWord) :: .nonterminal .commands ::
        .terminal (.mark .dollar) :: form, due, seen ++ [t], coming⟩ p (loop (bound + 1))
      (Recognized .command form due seen (t :: coming) fun tree _ p' =>
        p' = p.execute tree.meaning) := by
  have hc' : ∀ {u}, commandPart (seen ++ u) ≠ [] := commandPart_append_ne_nil hc _
  rw [loop]
  refine .get_bind fun s hs => ?_
  have hstart : s.generator.nextIndex = p.quads.length := by
    rw [← hs]
    rfl
  rw [hstart]
  refine .report_bind rfl ?_
  refine .call (reads_condition hc' (by omega)) fun u₁ rest₁ test holds p₁ hcoming htest h₁ => ?_
  obtain ⟨htemp, rfl⟩ := h₁
  subst hcoming
  rw [List.length_append] at hb
  refine .expect_bind (a := .word .doWord) rfl rfl fun t₂ rest₂ hrest₁ ht₂ => ?_
  subst hrest₁
  rw [List.length_cons] at hb
  refine .emitJump_bind rfl fun hole => ?_
  refine .call (ih.commands (commandPart_append_ne_nil (commandPart_append_ne_nil hc' _) _)
    (by omega)) fun u₃ rest₃ body _ p₃ hrest₂ hbody hp₃ => ?_
  subst hrest₂ hp₃
  -- the jump back is emitted first, so the one that waits goes past it
  rw [Products.branch_eq_grow]
  refine .jumpTo_bind fun _ => ?_
  rw [Products.emit_eq_grow, Products.grow_grow]
  refine .patch_bind (List.append_assoc ..) ?_ ?_
  · simp [Products.extend]
  refine .expect (a := .mark .dollar) rfl rfl fun t₄ rest₄ hrest₃ ht₄ => ?_
  subst hrest₃
  refine ⟨t :: u₁ ++ t₂ :: (u₃ ++ [t₄]), rest₄, .loop test body, by simp, by simp,
    by simp [Tree.lexemes, Keyword.lexeme, Mark.lexeme, Mark.text, *], ?_⟩
  simp [Products.execute_eq_grow, Tree.meaning, Statement.code, Statement.operations,
    Statement.narrowings, htemp, Nat.add_assoc, Nat.add_comm, Nat.add_left_comm]

/-- **The rules for commands do what they should**, for every recursion bound. -/
theorem commandRules (x : Scanned) (bound : Nat) : CommandRules x bound := by
  induction bound with
  | zero =>
    constructor
    all_goals intros; omega
  | succ bound ih =>
    exact {
      commands := reads_commands ih
      moreCommands := reads_moreCommands ih
      command := reads_command ih
      conditional := reads_conditional ih
      loop := reads_loop ih }

end ThreeAddress
