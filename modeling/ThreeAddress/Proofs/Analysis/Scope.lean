import ThreeAddress.Proofs.Analysis.Operands

/-!
# Declarations and uses

A program that is accepted declares its variables in front of `begin` and uses them behind it. The
table of its symbols and its code both come from there, and they agree: the code starts with one
allocation for each symbol and has no other (`Statement.op_ne_alloc_of_mem`), the variables that it
names are in the table, and its literals are tokens (`Accepted.uses_tokens`).

The declarations are groups of names, with a semicolon between two groups and the type in front of
the names of each. What the table says about the types is read off the tokens of the groups
(`Tree.inGroups`).
-/

namespace ThreeAddress

variable {names literals : String → Prop}

/-! ## 1. Slots -/

/-- A slot of an instruction holds a value or a jump target, except for the literal in an
allocation. -/
theorem Instruction.operand_cases {q : Quad} {o : Operand} (h : Instruction names literals q)
    (ho : o ∈ q.operands) :
    o.IsValue names literals ∨ (∃ target, o = .target target) ∨
      (q.op = .alloc ∧ ∃ type : VarType, o = .const type.zero) := by
  cases h with
  | @alloc v h =>
    rcases List.mem_pair.mp ho with rfl | rfl
    · exact .inr (.inr ⟨rfl, v.type, rfl⟩)
    · exact .inl (.var h)
  | read h | write h =>
    obtain rfl := List.mem_singleton.mp ho
    exact .inl (.var h)
  | store ha h =>
    rcases List.mem_pair.mp ho with rfl | rfl
    · exact .inl ha
    · exact .inl (.var h)
  | negate t ha =>
    rcases List.mem_pair.mp ho with rfl | rfl
    · exact .inl ha
    · exact .inl (.temp t)
  | arithmetic op t ha hb | comparison op t ha hb =>
    rcases List.mem_cons.mp ho with rfl | ho
    · exact .inl ha
    · rcases List.mem_pair.mp ho with rfl | rfl
      · exact .inl hb
      · exact .inl (.temp t)
  | branch t target =>
    rcases List.mem_pair.mp ho with rfl | rfl
    · exact .inl (.temp t)
    · exact .inr (.inl ⟨_, rfl⟩)
  | jump target =>
    obtain rfl := List.mem_singleton.mp ho
    exact .inr (.inl ⟨_, rfl⟩)
  | halt => cases ho

theorem Instruction.names_of_mem {q : Quad} {name : String} (h : Instruction names literals q)
    (hname : .var name ∈ q.operands) : names name := by
  rcases h.operand_cases hname with hvalue | ⟨target, htarget⟩ | ⟨-, type, hconst⟩
  · cases hvalue with | var h => exact h
  · cases htarget
  · cases hconst

theorem Instruction.literals_of_mem {q : Quad} {text : String} (h : Instruction names literals q)
    (hop : q.op ≠ .alloc) (htext : .const text ∈ q.operands) : literals text := by
  rcases h.operand_cases htext with hvalue | ⟨target, htarget⟩ | ⟨halloc, -⟩
  · cases hvalue with | const h => exact h
  · cases htarget
  · exact absurd halloc hop

theorem Expression.op_ne_alloc_of_mem {e : Expression} {next : Nat} {q : Quad}
    (hq : q ∈ e.code next) : q.op ≠ .alloc := by
  intro hop
  have harithmetic := isArithmetic_of_mem hq
  rw [hop] at harithmetic
  cases harithmetic

theorem Test.op_ne_alloc_of_mem {t : Test} {next : Nat} {q : Quad} (hq : q ∈ t.code next) :
    q.op ≠ .alloc := by
  simp only [code, List.mem_append, List.mem_singleton] at hq
  rcases hq with (hq | hq) | rfl
  · exact Expression.op_ne_alloc_of_mem hq
  · exact Expression.op_ne_alloc_of_mem hq
  · cases t.comparison <;> exact Operator.noConfusion

/-- Commands allocate nothing. -/
theorem Statement.op_ne_alloc_of_mem {s : Statement} {base next : Nat} {q : Quad}
    (hq : q ∈ s.code base next) : q.op ≠ .alloc := by
  induction s generalizing base next with
  | skip => cases hq
  | read name | write name =>
    rw [List.mem_singleton.mp hq]
    exact Operator.noConfusion
  | assign name e =>
    simp only [code, List.mem_append, List.mem_singleton] at hq
    rcases hq with hq | rfl
    · exact Expression.op_ne_alloc_of_mem hq
    · exact Operator.noConfusion
  | seq a b iha ihb =>
    simp only [code, List.mem_append] at hq
    rcases hq with hq | hq
    · exact iha hq
    · exact ihb hq
  | ite t a b iha ihb =>
    simp only [code, List.mem_append, List.mem_cons] at hq
    rcases hq with hq | rfl | hq | rfl | hq
    · exact Test.op_ne_alloc_of_mem hq
    · exact Operator.noConfusion
    · exact iha hq
    · exact Operator.noConfusion
    · exact ihb hq
  | loop t a iha =>
    simp only [code, List.mem_append, List.mem_cons, List.not_mem_nil, or_false] at hq
    rcases hq with hq | rfl | hq | rfl
    · exact Test.op_ne_alloc_of_mem hq
    · exact Operator.noConfusion
    · exact iha hq
    · exact Operator.noConfusion

/-! ## 2. Groups of declarations -/

/-- The groups of declarations, as the semicolons separate them. -/
def declarationGroups (ts : List Token) : List (List Token) :=
  ts.splitOnP (·.kind = .semicolon)

/-- The type that a group starts with. -/
def groupType? (group : List Token) : Option VarType :=
  group.head?.bind Analyzer.declaredType?

/-- The names of a group, with its type. -/
def groupNames (group : List Token) : List (String × Option VarType) :=
  (identifiers group).map (·, groupType? group)

/-- A symbol as a name with a type. -/
def Symbol.typed (v : Symbol) : String × Option VarType :=
  (v.name, some v.type)

/-- What the tokens of a tree declare. The type of a group is not known yet when its names are
read. -/
def InGroups : (A : NonTerminal) → List Token → Meaning A → Prop
  | .declarations, ts, vs => (declarationGroups ts).flatMap groupNames = vs.map Symbol.typed
  | .moreDeclarations, ts, vs =>
    ts = [] ∧ vs = [] ∨ ∃ t rest, ts = t :: rest ∧ t.kind = .semicolon ∧
      (declarationGroups rest).flatMap groupNames = vs.map Symbol.typed
  | .varDeclaration, ts, vs =>
    (∀ t ∈ ts, t.kind ≠ .semicolon) ∧ groupNames ts = vs.map Symbol.typed
  | .varType, ts, type => ∃ t, ts = [t] ∧ t.kind = .keyword ∧ Analyzer.declaredType? t = some type
  | .variableNames, ts, ns | .moreVariables, ts, ns =>
    (∀ t ∈ ts, t.kind ≠ .semicolon) ∧ identifiers ts = ns
  | _, _, _ => True

theorem declaredType?_of_lexeme {t : Token} {type : VarType}
    (h : t.lexeme = (.keyword, type.name)) :
    t.kind = .keyword ∧ Analyzer.declaredType? t = some type := by
  obtain ⟨span, kind, text⟩ := t
  cases h
  refine ⟨rfl, ?_⟩
  cases type <;> rfl

theorem kind_of_lexeme {t : Token} {l : Lexeme} (h : t.lexeme = l) : t.kind = l.1 :=
  congrArg Prod.fst h

/-- A token that is neither a semicolon nor an identifier changes nothing in the middle of a
group. -/
theorem group_cons {t : Token} {ts : List Token} (hsemicolon : t.kind ≠ .semicolon)
    (hidentifier : t.kind ≠ .identifier) {ns : List String}
    (h : (∀ t ∈ ts, t.kind ≠ .semicolon) ∧ identifiers ts = ns) :
    (∀ u ∈ t :: ts, u.kind ≠ .semicolon) ∧ identifiers (t :: ts) = ns := by
  refine ⟨List.forall_mem_cons.mpr ⟨hsemicolon, h.1⟩, ?_⟩
  have happend := identifiers_append [t] ts
  rwa [identifiers_singleton_of_ne hidentifier, List.nil_append, h.2] at happend

/-- **Each name has the type in front of its group.** -/
theorem Tree.inGroups {A : NonTerminal} (tree : Tree A) {ts : List Token}
    (h : ts.map Token.lexeme = tree.lexemes) : InGroups A ts tree.meaning := by
  induction tree generalizing ts with
  | noDeclarations =>
    obtain rfl := List.map_eq_nil_iff.mp h
    rfl
  | declarations first more ihf ihm =>
    obtain ⟨us, vs, rfl, hus, hvs⟩ := List.map_eq_append_iff.mp h
    obtain ⟨hclean, hgroup⟩ := ihf hus
    have hclean : ∀ u ∈ us, decide (u.kind = .semicolon) = false := by
      intro u hu
      exact decide_eq_false (hclean u hu)
    show (declarationGroups (us ++ vs)).flatMap groupNames = (first.meaning ++ more.meaning).map _
    rw [List.map_append, ← hgroup]
    rcases ihm hvs with ⟨rfl, hnil⟩ | ⟨t, rest, rfl, ht, hrest⟩
    · rw [hnil, List.append_nil, declarationGroups, List.splitOnP_eq_singleton hclean]
      rfl
    · rw [← hrest, declarationGroups,
        List.splitOnP_append_cons_of_forall_mem hclean _ (decide_eq_true ht)]
      rfl
  | endDeclarations =>
    obtain rfl := List.map_eq_nil_iff.mp h
    exact .inl ⟨rfl, rfl⟩
  | moreDeclarations rest ih =>
    obtain ⟨t, ts, rfl, ht, hrest⟩ := List.map_eq_cons_iff.mp h
    exact .inr ⟨t, ts, rfl, kind_of_lexeme ht, ih hrest⟩
  | varDeclaration type names iht ihn =>
    obtain ⟨us, vs, rfl, hus, hvs⟩ := List.map_eq_append_iff.mp h
    obtain ⟨colon, vs, rfl, hcolon, hvs⟩ := List.map_eq_cons_iff.mp hvs
    obtain ⟨t, rfl, ht, htype⟩ := iht hus
    have hkind : colon.kind = .typeDeclaration := kind_of_lexeme hcolon
    have hrest := group_cons (t := colon) (by rw [hkind]; exact TokenKind.noConfusion)
      (by rw [hkind]; exact TokenKind.noConfusion) (ihn hvs)
    obtain ⟨hclean, hnames⟩ := group_cons (t := t) (by rw [ht]; exact TokenKind.noConfusion)
      (by rw [ht]; exact TokenKind.noConfusion) hrest
    refine ⟨hclean, ?_⟩
    show (identifiers (t :: colon :: vs)).map (·, Analyzer.declaredType? t) =
      (names.meaning.map (⟨·, type.meaning⟩)).map Symbol.typed
    rw [hnames, htype, List.map_map]
    rfl
  | varType type =>
    obtain ⟨t, rest, rfl, ht, hrest⟩ := List.map_eq_cons_iff.mp h
    obtain rfl := List.map_eq_nil_iff.mp hrest
    exact ⟨t, rfl, declaredType?_of_lexeme ht⟩
  | variableNames name more ih =>
    obtain ⟨t, rest, rfl, ht, hrest⟩ := List.map_eq_cons_iff.mp h
    obtain ⟨hclean, hnames⟩ := ih hrest
    have hkind : t.kind = .identifier := kind_of_lexeme ht
    refine ⟨List.forall_mem_cons.mpr ⟨by rw [hkind]; exact TokenKind.noConfusion, hclean⟩, ?_⟩
    have happend := identifiers_append [t] rest
    rw [identifiers_singleton hkind, hnames,
      show t.text = name from congrArg Prod.snd ht] at happend
    exact happend
  | endVariables =>
    obtain rfl := List.map_eq_nil_iff.mp h
    exact ⟨fun t ht => absurd ht List.not_mem_nil, rfl⟩
  | moreVariables rest ih =>
    obtain ⟨t, ts, rfl, ht, hrest⟩ := List.map_eq_cons_iff.mp h
    have hkind : t.kind = .symbol := kind_of_lexeme ht
    exact group_cons (by rw [hkind]; exact TokenKind.noConfusion)
      (by rw [hkind]; exact TokenKind.noConfusion) (ih hrest)
  | _ => trivial

/-! ## 3. The parts of a program -/

/-- The tokens of a program: a heading, declarations, `begin` and the rest. -/
structure CutAtBegin (ts ds cs : List Token) : Prop where
  cut : ∃ t name b, ts = t :: name :: (ds ++ b :: cs) ∧ t.isKeyword .programWord = true ∧
    name.kind = .identifier ∧ b.isKeyword .beginWord = true
  first : ∀ t ∈ ds, t.isKeyword .beginWord = false

theorem Tree.cutAtBegin {ts : List Token} {name : String} {ds : Tree .declarations}
    {cs : Tree .commands} (h : ts.map Token.lexeme = (Tree.program name (.body ds cs)).lexemes) :
    ∃ us vs, CutAtBegin ts us vs ∧ us.map Token.lexeme = ds.lexemes := by
  simp only [Tree.lexemes, List.append_assoc, List.cons_append] at h
  obtain ⟨t₀, ts₁, rfl, ht₀, h⟩ := List.map_eq_cons_iff.mp h
  obtain ⟨t₁, ts₂, rfl, ht₁, h⟩ := List.map_eq_cons_iff.mp h
  obtain ⟨us, ts₃, rfl, hus, h⟩ := List.map_eq_append_iff.mp h
  obtain ⟨t, vs, rfl, ht, h⟩ := List.map_eq_cons_iff.mp h
  refine ⟨us, vs, ⟨⟨t₀, t₁, t, rfl, isKeyword_iff_lexeme.mpr ht₀, kind_of_lexeme ht₁,
    isKeyword_iff_lexeme.mpr ht⟩, ?_⟩, hus⟩
  intro u hu
  rw [← Bool.not_eq_true, isKeyword_iff_lexeme]
  intro hbegin
  refine begin_not_mem_lexemes ds (by decide) ?_
  rw [← hus, ← hbegin]
  exact List.mem_map_of_mem hu

theorem CutAtBegin.declarationPart {ts ds cs : List Token} (h : CutAtBegin ts ds cs) :
    declarationPart ts = ds := by
  obtain ⟨⟨t, name, b, rfl, -, -, hb⟩, hfirst⟩ := h
  have hall : ∀ u ∈ ds, (!u.isKeyword .beginWord) = true := by
    intro u hu
    rw [hfirst u hu]
    rfl
  show (ds ++ b :: cs).takeWhile _ = ds
  rw [List.takeWhile_append_of_pos hall, List.takeWhile_cons_of_neg (by simp [hb]), List.append_nil]

/-- The text of a literal among some tokens. -/
def IsLiteralOf (ts : List Token) (text : String) : Prop :=
  ∃ t ∈ ts, (t.kind = .integer ∨ t.kind = .float) ∧ t.text = text

namespace Accepted

variable {source : String} {a : Analysis} {tree : Tree .program}

/-- The commands use names of the table and literals of the source. -/
theorem uses_tokens (h : Accepted source a tree) :
    tree.meaning.body.Uses (· ∈ a.symbols.symbols.toList.map Symbol.name)
      (IsLiteralOf (sourceStream source).tokens) := by
  cases tree with | program name b => cases b with | body ds cs =>
  refine cs.uses_meaning fun l hl => ?_
  obtain ⟨t, ht, rfl⟩ := exists_mem_commandPart h.lexemes hl
  refine ⟨fun hk => ?_, fun type hk => ⟨t, ?_, ?_, rfl⟩⟩
  · rw [h.symbols, h.names]
    exact (wellNamed_iff.mp h.wellNamed).2 t.text (mem_identifiers ht hk)
  · exact List.mem_of_mem_drop ((List.dropWhile_sublist _).mem ht)
  · cases type with
    | integer => exact .inl hk
    | real => exact .inr hk

/-- The code is the allocations, the commands and a halt. -/
theorem code_eq (h : Accepted source a tree) :
    a.program.quads.toList = a.symbols.symbols.toList.map Symbol.alloc ++
      (tree.meaning.body.code a.symbols.size 1 ++ [{ op := .halt }]) := by
  have hsize : a.symbols.size = tree.meaning.symbols.length := by
    rw [← h.symbols, Array.length_toList]
    rfl
  rw [h.code, h.symbols, hsize, ← List.append_assoc]
  rfl

end Accepted

namespace Analysis

/-- **Declarations and uses agree.** The tokens of an accepted source are a heading, declarations,
`begin` and commands. The table has the names of the declarations in order, each once and with the
type of its group. The code starts with the allocations of the table and has no others, its
variables are names of the table, and its literals after the allocations are tokens. -/
theorem declarations_match_uses {source : String} {a : Analysis} (h : (ofSource source).1 = .ok a) :
    ∃ ts ds cs, (Lexer.ofSource source).tokens.answer = .ok ts ∧ CutAtBegin ts ds cs ∧
      a.program.quads.toList.take a.symbols.size = a.symbols.symbols.toList.map (fun v =>
        ⟨.alloc, some (.const v.type.zero), none, some (.var v.name)⟩) ∧
      (∀ q ∈ a.program.quads.toList.drop a.symbols.size, q.op ≠ .alloc) ∧
      (a.symbols.symbols.toList.map Symbol.name).Nodup ∧
      a.symbols.symbols.toList.map Symbol.name = identifiers ds ∧
      a.symbols.symbols.toList.map Symbol.typed = (declarationGroups ds).flatMap groupNames ∧
      (∀ q ∈ a.program.quads.toList, ∀ name, .var name ∈ q.operands →
        name ∈ a.symbols.symbols.toList.map Symbol.name) ∧
      ∀ q ∈ a.program.quads.toList.drop a.symbols.size, ∀ text, .const text ∈ q.operands →
        IsLiteralOf ts text := by
  obtain ⟨tree, haccepted⟩ := exists_accepted h
  have htokens : (Lexer.ofSource source).tokens.answer = .ok (sourceStream source).tokens := by
    rw [tokens_ofSource_answer, Stream.collected, haccepted.error]
  have hlength : (a.symbols.symbols.toList.map Symbol.alloc).length = a.symbols.size := by
    rw [List.length_map, Array.length_toList]
    rfl
  have huses := haccepted.uses_tokens
  -- the part after the allocations
  have hrest : ∀ q ∈ a.program.quads.toList.drop a.symbols.size, q.op ≠ .alloc ∧
      Instruction (· ∈ a.symbols.symbols.toList.map Symbol.name)
        (IsLiteralOf (sourceStream source).tokens) q := by
    intro q hq
    rw [haccepted.code_eq, List.drop_left' hlength, List.mem_append, List.mem_singleton] at hq
    rcases hq with hq | rfl
    · exact ⟨Statement.op_ne_alloc_of_mem hq, Statement.instruction_of_mem huses hq⟩
    · exact ⟨Operator.noConfusion, .halt⟩
  obtain ⟨ds, cs, hcut, hgroups⟩ : ∃ ds cs, CutAtBegin (sourceStream source).tokens ds cs ∧
      (declarationGroups ds).flatMap groupNames = tree.meaning.symbols.map Symbol.typed := by
    have hlexemes := haccepted.lexemes
    cases tree with | program name b => cases b with | body declarations commands =>
    obtain ⟨ds, cs, hcut, hds⟩ := Tree.cutAtBegin hlexemes
    exact ⟨ds, cs, hcut, declarations.inGroups hds⟩
  refine ⟨_, ds, cs, htokens, hcut, ?_, fun q hq => (hrest q hq).1, ?_, ?_, ?_, ?_,
    fun q hq text htext => (hrest q hq).2.literals_of_mem (hrest q hq).1 htext⟩
  · rw [haccepted.code_eq, List.take_left' hlength]
    rfl
  · rw [haccepted.symbols]
    exact haccepted.distinct
  · rw [haccepted.symbols, haccepted.names, hcut.declarationPart]
  · rw [haccepted.symbols, hgroups]
  · intro q hq name hname
    rw [haccepted.code] at hq
    refine (SourceProgram.instruction_of_mem (fun v hv => ?_) huses hq).names_of_mem hname
    rw [haccepted.symbols]
    exact List.mem_map_of_mem hv

/-- Two groups, the first with two names. -/
def mixedTypes : String :=
  "program p real: x, y; integer: n begin x := n * 2.5; write(x) end."

theorem declarations_match_uses_mixedTypes :
    ∃ a, (ofSource mixedTypes).1 = .ok a ∧
      a.symbols.symbols.toList = [⟨"x", .real⟩, ⟨"y", .real⟩, ⟨"n", .integer⟩] ∧
      ∃ ts ds cs, (Lexer.ofSource mixedTypes).tokens.answer = .ok ts ∧ CutAtBegin ts ds cs ∧
        a.program.quads.toList.take a.symbols.size = a.symbols.symbols.toList.map (fun v =>
          ⟨.alloc, some (.const v.type.zero), none, some (.var v.name)⟩) ∧
        (∀ q ∈ a.program.quads.toList.drop a.symbols.size, q.op ≠ .alloc) ∧
        (a.symbols.symbols.toList.map Symbol.name).Nodup ∧
        a.symbols.symbols.toList.map Symbol.name = identifiers ds ∧
        a.symbols.symbols.toList.map Symbol.typed = (declarationGroups ds).flatMap groupNames ∧
        (∀ q ∈ a.program.quads.toList, ∀ name, .var name ∈ q.operands →
          name ∈ a.symbols.symbols.toList.map Symbol.name) ∧
        ∀ q ∈ a.program.quads.toList.drop a.symbols.size, ∀ text, .const text ∈ q.operands →
          IsLiteralOf ts text := by
  obtain ⟨a, ha, hsymbols⟩ : ∃ a, (ofSource mixedTypes).1 = .ok a ∧
      a.symbols.symbols.toList = [⟨"x", .real⟩, ⟨"y", .real⟩, ⟨"n", .integer⟩] :=
    exists_of_map_toOption (by decide +kernel)
  exact ⟨a, ha, hsymbols, declarations_match_uses ha⟩

end Analysis

end ThreeAddress
