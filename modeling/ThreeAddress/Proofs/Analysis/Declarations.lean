import ThreeAddress.Proofs.Analysis.Commands

/-!
# The rules for declarations and programs

What the rules for declarations do: they read the tokens of one parse tree, and the variables that
it declares are set up in the order of their names. With the rules for commands this gives the whole
program (`reads_program`).

While declarations are read, no `begin` has been seen. It cannot be hidden in a tree of
declarations, so the declaration part of the tokens is what has been read.
-/

namespace ThreeAddress

open Grammar Analyzer

variable {β : Type} {x : Scanned} {p : Products}
  {form : List (ContextFreeRule.Item Terminal NonTerminal)} {due bound : Nat}
  {seen coming rest : List Token} {t : Token} {Q : Point → β → Products → Prop}

/-! ## 1. The declaration part -/

/-- The categories of the declaration part. -/
def declarationCategories : List NonTerminal :=
  [.declarations, .moreDeclarations, .varDeclaration, .varType, .variableNames, .moreVariables]

/-- There is no `begin` among declarations. -/
theorem begin_not_mem_lexemes {A : NonTerminal} (tree : Tree A) (h : A ∈ declarationCategories) :
    Keyword.beginWord.lexeme ∉ tree.lexemes := by
  induction tree with
  | noDeclarations | endDeclarations | endVariables => exact List.not_mem_nil
  | declarations first more ihf ihm =>
    rw [Tree.lexemes, List.mem_append, not_or]
    exact ⟨ihf (by decide), ihm (by decide)⟩
  | moreDeclarations rest ih =>
    rw [Tree.lexemes, List.mem_cons, not_or]
    exact ⟨by decide, ih (by decide)⟩
  | varDeclaration type names iht ihn =>
    rw [Tree.lexemes, List.mem_append, List.mem_cons, not_or, not_or]
    exact ⟨iht (by decide), by decide, ihn (by decide)⟩
  | varType type => cases type <;> decide
  | variableNames name more ih =>
    rw [Tree.lexemes, List.mem_cons, not_or]
    exact ⟨by simp [Keyword.lexeme], ih (by decide)⟩
  | moreVariables rest ih =>
    rw [Tree.lexemes, List.mem_cons, not_or]
    exact ⟨by decide, ih (by decide)⟩
  | _ => exact absurd h (by decide)

theorem isKeyword_iff_lexeme {k : Keyword} : t.isKeyword k = true ↔ t.lexeme = k.lexeme :=
  Token.isKeyword_iff.trans (Token.terminal?_eq_some_iff rfl)

/-- The names among some lexemes. -/
def names (ls : List Lexeme) : List String :=
  (ls.filter (·.1 = .identifier)).map Prod.snd

theorem identifiers_eq_names (ts : List Token) : identifiers ts = names (ts.map Token.lexeme) := by
  rw [identifiers, names, List.filter_map, List.map_map]
  rfl

theorem mem_names_iff_mem {ls : List Lexeme} {x : String} :
    x ∈ names ls ↔ (.identifier, x) ∈ ls := by
  simp [names]

/-- The parts of a program, by the lexemes of its tokens. -/
theorem lexemes_parts (ts : List Token) :
    (declarationPart ts).map Token.lexeme =
        ((ts.map Token.lexeme).drop 2).takeWhile (· ≠ Keyword.beginWord.lexeme) ∧
      (commandPart ts).map Token.lexeme =
        ((ts.map Token.lexeme).drop 2).dropWhile (· ≠ Keyword.beginWord.lexeme) := by
  have hbegin : (fun l : Lexeme => decide (l ≠ Keyword.beginWord.lexeme)) ∘ Token.lexeme =
      (!·.isKeyword .beginWord) := by
    funext t
    rw [Function.comp_apply, Bool.eq_iff_iff, decide_eq_true_iff, Bool.not_eq_true',
      ← Bool.not_eq_true, isKeyword_iff_lexeme]
  rw [declarationPart, commandPart, ← List.map_drop, List.takeWhile_map, List.dropWhile_map, hbegin]
  exact ⟨rfl, rfl⟩

/-- The tokens seen end in the declaration part. -/
structure InDeclarations (seen : List Token) : Prop where
  heading : 2 ≤ seen.length
  noCommand : commandPart seen = []

theorem InDeclarations.concat (h : InDeclarations seen) (ht : t.isKeyword .beginWord = false) :
    InDeclarations (seen ++ [t]) where
  heading := by
    rw [List.length_append]
    exact Nat.le_add_right_of_le h.heading
  noCommand := by
    rw [(parts_declarations h.heading h.noCommand).2, ht]
    rfl

theorem InDeclarations.append (h : InDeclarations seen) {u : List Token}
    (hu : Keyword.beginWord.lexeme ∉ u.map Token.lexeme) : InDeclarations (seen ++ u) := by
  induction u generalizing seen with
  | nil => rwa [List.append_nil]
  | cons t u ih =>
    rw [List.map_cons, List.mem_cons, not_or] at hu
    have ht : t.isKeyword .beginWord = false :=
      Bool.eq_false_iff.mpr fun hbegin => hu.1 (isKeyword_iff_lexeme.mp hbegin).symm
    rw [List.append_cons]
    exact ih (h.concat ht) hu.2

/-- A tree of declarations has been read. -/
theorem InDeclarations.tree (h : InDeclarations seen) {A : NonTerminal} {tree : Tree A}
    {u : List Token} (hu : u.map Token.lexeme = tree.lexemes) (hA : A ∈ declarationCategories) :
    InDeclarations (seen ++ u) := by
  refine h.append ?_
  rw [hu]
  exact begin_not_mem_lexemes tree hA

theorem InDeclarations.commandPart_ne_nil (h : InDeclarations seen)
    (ht : t.lexeme = Keyword.beginWord.lexeme) : commandPart (seen ++ [t]) ≠ [] := by
  rw [(parts_declarations h.heading h.noCommand).2, isKeyword_iff_lexeme.mpr ht]
  exact List.cons_ne_nil _ _

/-! ## 2. What declarations make -/

namespace Products

/-- What has been made when some variables have been declared. -/
def declareAll (p : Products) (symbols : List Symbol) : Products :=
  { p with symbols := p.symbols ++ symbols, quads := p.quads ++ symbols.map Symbol.alloc }

theorem declareAll_nil (p : Products) : p.declareAll [] = p := by
  simp [declareAll]

theorem declareAll_cons (p : Products) (symbol : Symbol) (symbols : List Symbol) :
    (p.declare symbol).declareAll symbols = p.declareAll (symbol :: symbols) := by
  simp [declareAll, declare, emit, extend]

theorem declareAll_append (p : Products) (symbols symbols' : List Symbol) :
    (p.declareAll symbols).declareAll symbols' = p.declareAll (symbols ++ symbols') := by
  simp [declareAll]

end Products

/-! ## 3. The rules -/

/-- The reserved word of a type. -/
def VarType.keyword : VarType → Keyword
  | .integer => .integerWord
  | .real => .realWord

theorem predict_varType (type : VarType) :
    predict .varType (some (.word type.keyword)) = some [.terminal (.word type.keyword)] := by
  cases type <;> rfl

theorem declaredType?_eq_some_iff {type : VarType} :
    declaredType? t = some type ↔ t.terminal? = some (.word type.keyword) := by
  rw [← Token.keyword?_eq_some_iff, declaredType?, Option.bind_eq_some_iff]
  constructor
  · rintro ⟨k, hk, hof⟩
    rw [hk]
    cases k <;> cases hof <;> rfl
  · intro hk
    exact ⟨_, hk, by cases type <;> rfl⟩

theorem declaredType?_eq_none_iff :
    declaredType? t = none ↔ ∀ a ∈ typeWords, t.terminal? ≠ some a := by
  rw [Option.eq_none_iff_forall_ne_some]
  constructor
  · intro h a ha ht
    fin_cases ha
    · exact h .real (declaredType?_eq_some_iff.mpr ht)
    · exact h .integer (declaredType?_eq_some_iff.mpr ht)
  · intro h type htype
    exact h (.word type.keyword) (by cases type <;> decide) (declaredType?_eq_some_iff.mp htype)

theorem reads_varType :
    Reads x ⟨.nonterminal .varType :: form, due, seen, coming⟩ p varType
      (Recognized .varType form due seen coming fun tree type p' =>
        type = tree.meaning ∧ p' = p) := by
  rw [varType]
  refine .consume_bind (fun _ herror => .ended herror rfl) fun t rest hcoming => ?_
  subst hcoming
  dsimp only
  cases htype : declaredType? t with
  | none => exact .unexpected (predict_of_not_first (declaredType?_eq_none_iff.mp htype))
  | some type =>
    have ht := declaredType?_eq_some_iff.mp htype
    refine .expand ht (predict_varType type) (.shift ht (by simp) (.pure ?_))
    refine ⟨[t], rest, .varType type, rfl, rfl, ?_, rfl, rfl⟩
    rw [List.map_singleton, (Token.terminal?_eq_some_iff rfl).mp ht]
    cases type <;> rfl

theorem reads_variableNames (bound : Nat) {type : VarType} (hd : InDeclarations seen)
    (hb : coming.length < bound) :
    Reads x ⟨.nonterminal .variableNames :: form, due, seen, coming⟩ p (variableNames bound type)
      (Recognized .variableNames form due seen coming fun tree _ p' =>
        p' = p.declareAll (tree.meaning.map (⟨·, type⟩))) := by
  induction bound generalizing form seen coming p with
  | zero => omega
  | succ bound ih =>
    rw [variableNames]
    refine .expand rfl rfl (.expectIdentifier_bind fun t rest hcoming hk => ?_)
    subst hcoming
    rw [List.length_cons] at hb
    refine .declare_bind hk hd.heading hd.noCommand (.within ?_)
    have hd' : InDeclarations (seen ++ [t]) := hd.concat (not_isKeyword_of_identifier hk _)
    refine .consumeIf_bind (fun t' rest' hrest hcomma => ?_) fun hcomma => ?_
    · subst hrest
      rw [List.length_cons] at hb
      have ht' := (Token.is_iff (a := .mark .comma) rfl).mp hcomma
      have hlexeme := (Token.terminal?_eq_some_iff rfl).mp ht'
      refine .expand ht' rfl (.shift ht' (by decide) ?_)
      rw [if_pos rfl]
      have hd'' : InDeclarations (seen ++ [t] ++ [t']) := hd'.append (by simp [hlexeme]; decide)
      refine .within ((ih hd'' (by omega)).mono ?_)
      rintro _ _ p' ⟨u, rest'', tree, rfl, rfl, htree, rfl⟩
      refine ⟨t :: t' :: u, rest'', .variableNames t.text (.moreVariables tree), by simp,
        by simp, ?_, ?_⟩
      · simp [Tree.lexemes, Token.lexeme_eq hk, hlexeme, Mark.lexeme, htree]
      · simp [Tree.meaning, Products.declareAll_cons]
    · rw [if_neg Bool.false_ne_true]
      refine .expand rfl (predict_of_not_first fun a ha hterminal => ?_) (.pure ?_)
      · obtain ⟨t', ht', hmark⟩ := Option.bind_eq_some_iff.mp hterminal
        rw [List.mem_singleton.mp ha] at hmark
        exact Bool.false_ne_true ((hcomma t' ht').symm.trans ((Token.is_iff rfl).mpr hmark))
      · refine ⟨[t], rest, .variableNames t.text .endVariables, by simp, by simp, ?_, ?_⟩
        · simp [Tree.lexemes, Token.lexeme_eq hk]
        · rw [← Products.declareAll_nil (p.declare _), Products.declareAll_cons]
          rfl

theorem reads_varDeclaration (hd : InDeclarations seen) (hb : coming.length ≤ bound) :
    Reads x ⟨.nonterminal .varDeclaration :: form, due, seen, coming⟩ p (varDeclaration bound)
      (Recognized .varDeclaration form due seen coming fun tree _ p' =>
        p' = p.declareAll tree.meaning) := by
  rw [varDeclaration]
  refine .expand rfl rfl (.call reads_varType fun u rest typeTree type p' hcoming hu htype => ?_)
  obtain ⟨rfl, rfl⟩ := htype
  subst hcoming
  rw [List.length_append] at hb
  refine .expect_bind (a := .colon) rfl rfl fun t rest' hrest ht => ?_
  subst hrest
  rw [List.length_cons] at hb
  have hd' : InDeclarations (seen ++ u ++ [t]) :=
    (hd.tree hu (by decide)).append (by simp [ht]; decide)
  refine .within ((reads_variableNames bound hd' (by omega)).mono ?_)
  rintro _ _ p' ⟨u', rest'', names, rfl, rfl, hnames, rfl⟩
  exact ⟨u ++ t :: u', rest'', .varDeclaration typeTree names, by simp, by simp,
    by simp [Tree.lexemes, hu, ht, hnames], rfl⟩

theorem predict_declarations {a : Terminal} (h : a ∈ typeWords) :
    predict .declarations (some a) =
      some [.nonterminal .varDeclaration, .nonterminal .moreDeclarations] := by
  fin_cases h <;> rfl

theorem reads_declarations (bound : Nat) (hd : InDeclarations seen) (hb : coming.length < bound) :
    Reads x ⟨.nonterminal .declarations :: form, due, seen, coming⟩ p (declarations bound)
      (Recognized .declarations form due seen coming fun tree _ p' =>
        p' = p.declareAll tree.meaning) := by
  induction bound generalizing form seen coming p with
  | zero => omega
  | succ bound ih =>
    rw [declarations]
    refine .peek_bind ?_
    by_cases htype : (coming.head?.bind declaredType?).isSome = true
    · obtain ⟨type, hbind⟩ := Option.isSome_iff_exists.mp htype
      obtain ⟨t, hhead, hdeclared⟩ := Option.bind_eq_some_iff.mp hbind
      have ht : coming.head?.bind Token.terminal? = some (.word type.keyword) := by
        rw [hhead]
        exact declaredType?_eq_some_iff.mp hdeclared
      rw [if_pos htype]
      refine .expand ht (predict_declarations (by cases type <;> decide)) ?_
      refine .call (reads_varDeclaration hd (Nat.le_of_lt_succ hb))
        fun u rest first _ p₁ hcoming hfirst hp₁ => .within ?_
      subst hcoming hp₁
      have hu : 0 < u.length := by
        rw [← List.length_map, hfirst]
        exact List.length_pos_iff.mpr first.lexemes_varDeclaration_ne_nil
      have hd' : InDeclarations (seen ++ u) := hd.tree hfirst (by decide)
      rw [List.length_append] at hb
      refine .consumeIf_bind (fun t' rest' hrest hk => ?_) fun hsemicolon => ?_
      · subst hrest
        rw [List.length_cons] at hb
        refine .semicolon (of_decide_eq_true hk) fun ht' => ?_
        have hlexeme := (Token.terminal?_eq_some_iff rfl).mp ht'
        refine .expand ht' rfl (.shift ht' (by decide) ?_)
        rw [if_pos rfl]
        have hd'' : InDeclarations (seen ++ u ++ [t']) := hd'.append (by simp [hlexeme]; decide)
        refine .within ((ih hd'' (by omega)).mono ?_)
        rintro _ _ p' ⟨u', rest'', more, rfl, rfl, hmore, rfl⟩
        exact ⟨u ++ t' :: u', rest'',
          .declarations first (.moreDeclarations more), by simp, by simp,
          by simp [Tree.lexemes, hfirst, hlexeme, hmore], p.declareAll_append _ _⟩
      · rw [if_neg Bool.false_ne_true]
        refine .expand rfl (predict_of_not_first fun a ha hterminal => ?_) (.pure ?_)
        · obtain ⟨t', ht', hmark⟩ := Option.bind_eq_some_iff.mp hterminal
          rw [List.mem_singleton.mp ha] at hmark
          have hk := congrArg Prod.fst ((Token.terminal?_eq_some_iff rfl).mp hmark)
          exact of_decide_eq_false (hsemicolon t' ht') hk
        · exact ⟨u, rest, .declarations first .endDeclarations, rfl, rfl,
            by simp [Tree.lexemes, hfirst], by simp [Tree.meaning]⟩
    · rw [if_neg htype]
      refine .expand rfl (predict_of_not_first fun a ha hterminal => ?_) (.pure ?_)
      · obtain ⟨t, hhead, ht⟩ := Option.bind_eq_some_iff.mp hterminal
        rw [hhead, Option.bind_some, Option.not_isSome_iff_eq_none] at htype
        exact declaredType?_eq_none_iff.mp htype a ha ht
      · exact ⟨[], coming, .noDeclarations, rfl, by simp, rfl, p.declareAll_nil.symm⟩

theorem reads_body (hd : InDeclarations seen) (hb : 4 * coming.length + 2 ≤ bound) :
    Reads x ⟨.nonterminal .body :: form, due, seen, coming⟩ p (body bound)
      (Recognized .body form due seen coming fun tree _ p' =>
        p' = (p.declareAll tree.meaning.1).execute tree.meaning.2) := by
  rw [body]
  refine .expand rfl rfl (.call (reads_declarations bound hd (by omega))
    fun u rest ds _ p₁ hcoming hds hp₁ => ?_)
  subst hcoming hp₁
  rw [List.length_append] at hb
  refine .expect_bind (a := .word .beginWord) rfl rfl fun t rest' hrest ht => ?_
  subst hrest
  rw [List.length_cons] at hb
  have hc : commandPart (seen ++ u ++ [t]) ≠ [] := (hd.tree hds (by decide)).commandPart_ne_nil ht
  refine .call ((commandRules x bound).commands hc (by omega))
    fun u' rest'' cs _ p₂ hrest' hcs hp₂ => ?_
  subst hrest' hp₂
  refine .expect (a := .word .endWord) rfl rfl fun t' rest₃ hrest'' ht' => ?_
  subst hrest''
  exact ⟨u ++ t :: (u' ++ [t']), rest₃, .body ds cs, by simp, by simp,
    by simp [Tree.lexemes, Keyword.lexeme, hds, hcs, ht, ht'], rfl⟩

/-- **A whole program**, read from its first token on. -/
theorem reads_program (hb : 4 * coming.length + 2 ≤ bound) :
    Reads x ⟨.nonterminal .program :: form, due, [], coming⟩ p (program bound)
      (Recognized .program form due [] coming fun tree _ p' =>
        p' = (p.declareAll tree.meaning.symbols).execute tree.meaning.body) := by
  rw [program]
  refine .expand rfl rfl (.expect_bind (a := .word .programWord) rfl rfl
    fun t rest hcoming ht => ?_)
  subst hcoming
  rw [List.length_cons] at hb
  refine .expectIdentifier_bind fun t' rest' hrest hk => .heading hk (by simp) ?_
  subst hrest
  rw [List.length_cons] at hb
  refine .report_bind rfl (.call (reads_body ⟨by simp, rfl⟩ (by omega))
    fun u rest'' b _ p₁ hrest' hb' hp₁ => ?_)
  subst hrest' hp₁
  refine .expect (a := .mark .point) rfl rfl fun t₃ rest₃ hrest'' ht₃ => ?_
  subst hrest''
  exact ⟨t :: t' :: (u ++ [t₃]), rest₃, .program t'.text b, by simp, by simp,
    by simp [Tree.lexemes, Keyword.lexeme, Mark.lexeme, Mark.text, Token.lexeme_eq hk,
      ht, hb', ht₃],
    rfl⟩

end ThreeAddress
