import ThreeAddress.Proofs.Code.Temporaries
import ThreeAddress.Proofs.Lexer.Vocabulary

/-!
# Instructions and the tokens that ask for them

An instruction is in the code of a program because a token asks for it. A `read`, a `write`, a `:=`
and an operator ask for one each, and the word in front of a conditional or of a loop asks for two
jumps. Nothing else asks for any, apart from the variables, which have to be set up, and from the
end.

The two do not come in the same order: an operator stands between its operands and its instruction
behind theirs, and the jumps of a loop stand around its body. So they are counted. Every operator is
in the code of a part as often as the leaves of the parse tree ask for it (`Tree.balanced`), which
is one case for each right side of the grammar. The length of a program is the sum of this over all
operators.
-/

namespace ThreeAddress

/-! ## 1. Orders -/

/-- The operator as it is written in a source, where a sign looks like a difference. -/
def Operator.written : Operator → Operator
  | negate => subtract
  | op => op

@[simp] theorem Arithmetic.written_operator (op : Arithmetic) :
    op.operator.written = op.operator := by
  cases op <;> rfl

@[simp] theorem Comparison.written_operator (c : Comparison) : c.operator.written = c.operator := by
  cases c <;> rfl

/-- The instructions that a reserved word asks for. -/
def Keyword.orders : Keyword → List Operator
  | readWord => [.read]
  | writeWord => [.write]
  | ifWord | whileWord => [.jumpIfFalse, .jump]
  | _ => []

/-- The instructions that a lexeme asks for. -/
def Lexeme.orders : Lexeme → List Operator
  | (.keyword, text) => ((Keyword.ofText? text).map Keyword.orders).getD []
  | (.attributor, _) => [.store]
  | (.operator, text) => (Operator.ofArithmetic? text).toList
  | (.relational, text) => (Operator.ofRelational? text).toList
  | _ => []

/-- How often some lexemes ask for an operator. -/
def ordered (op : Operator) (ls : List Lexeme) : Nat :=
  (ls.flatMap Lexeme.orders).count op

/-- How often an operator is in some code. -/
def emitted (op : Operator) (code : List Quad) : Nat :=
  (code.map (·.op.written)).count op

section

variable {op : Operator}

@[simp] theorem ordered_nil : ordered op [] = 0 :=
  rfl

@[simp] theorem ordered_cons (l : Lexeme) (ls : List Lexeme) :
    ordered op (l :: ls) = (Lexeme.orders l).count op + ordered op ls := by
  simp [ordered]

@[simp] theorem ordered_append (ls ls' : List Lexeme) :
    ordered op (ls ++ ls') = ordered op ls + ordered op ls' := by
  simp [ordered]

@[simp] theorem emitted_nil : emitted op [] = 0 :=
  rfl

@[simp] theorem emitted_cons (q : Quad) (code : List Quad) :
    emitted op (q :: code) = [q.op.written].count op + emitted op code := by
  rw [emitted, List.map_cons, ← List.singleton_append, List.count_append, emitted]

@[simp] theorem emitted_append (a b : List Quad) :
    emitted op (a ++ b) = emitted op a + emitted op b := by
  simp [emitted]

/-- A conditional has two jumps of its own. -/
theorem Statement.emitted_ite (t : Test) (a b : Statement) (base next : Nat) :
    emitted op ((ite t a b).code base next) =
      emitted op (t.code next) + [Operator.jumpIfFalse, .jump].count op +
      emitted op (a.code (base + t.operations + 1) (next + t.operations)) +
      emitted op
        (b.code (base + t.operations + 1 + a.size + 1) (next + t.operations + a.operations)) := by
  simp [code, Quad.jump, Operator.written, List.count_cons]
  omega

/-- A loop has two jumps of its own. -/
theorem Statement.emitted_loop (t : Test) (a : Statement) (base next : Nat) :
    emitted op ((loop t a).code base next) =
      emitted op (t.code next) + [Operator.jumpIfFalse, .jump].count op +
      emitted op (a.code (base + t.operations + 1) (next + t.operations)) := by
  simp [code, Quad.jump, Operator.written, List.count_cons]
  omega

end

@[simp] theorem Keyword.orders_lexeme (k : Keyword) : Lexeme.orders k.lexeme = k.orders := by
  cases k <;> decide +kernel

@[simp] theorem Mark.orders_lexeme (m : Mark) : Lexeme.orders m.lexeme = [] :=
  rfl

@[simp] theorem Arithmetic.orders_lexeme (op : Arithmetic) :
    Lexeme.orders op.lexeme = [op.operator] := by
  cases op <;> decide +kernel

@[simp] theorem Comparison.orders_lexeme (c : Comparison) :
    Lexeme.orders (.relational, c.operator.symbol) = [c.operator] := by
  cases c <;> decide +kernel

@[simp] theorem VarType.orders_name (type : VarType) :
    Lexeme.orders (.keyword, type.name) = [] := by
  cases type <;> decide +kernel

@[simp] theorem VarType.orders_literal (type : VarType) (text : String) :
    Lexeme.orders (type.literalKind, text) = [] := by
  cases type <;> rfl

@[simp] theorem orders_identifier (name : String) : Lexeme.orders (.identifier, name) = [] :=
  rfl

@[simp] theorem orders_semicolon (text : String) : Lexeme.orders (.semicolon, text) = [] :=
  rfl

@[simp] theorem orders_colon (text : String) : Lexeme.orders (.typeDeclaration, text) = [] :=
  rfl

@[simp] theorem orders_becomes (text : String) : Lexeme.orders (.attributor, text) = [.store] :=
  rfl

/-! ## 2. Parse trees -/

/-- The operator is in the code of a part as often as the lexemes ask for it. -/
def Meaning.Balanced (op : Operator) (ls : List Lexeme) : (A : NonTerminal) → Meaning A → Prop
  | .program, p => ∀ base next, emitted op (p.body.code base next) = ordered op ls
  | .body, b => ∀ base next, emitted op (b.2.code base next) = ordered op ls
  | .commands, s | .moreCommands, s | .command, s | .elseBranch, s =>
    ∀ base next, emitted op (Statement.code base next s) = ordered op ls
  | .condition, t => ∀ next, emitted op (Test.code next t) = ordered op ls
  | .expression, e | .term, e | .factor, e =>
    ∀ next, emitted op (Expression.code next e) = ordered op ls
  -- the code of what stands to the left comes on top
  | .otherTerms, f | .moreFactors, f =>
    ∀ e next,
      emitted op (Expression.code next (f e)) = emitted op (Expression.code next e) + ordered op ls
  | .relation, c => ordered op ls = [Comparison.operator c].count op
  | .unaryOp, sign => ordered op ls = if sign then [Operator.subtract].count op else 0
  | _, _ => ordered op ls = 0

/-- **Every operator is in the code of a tree as often as the leaves ask for it.** -/
theorem Tree.balanced (op : Operator) {A : NonTerminal} (tree : Tree A) :
    Meaning.Balanced op tree.lexemes A tree.meaning := by
  induction tree with
  | program name b ih =>
    intro base next
    simp [lexemes, meaning, ih base next, Keyword.orders]
  | body ds cs ihd ihc =>
    intro base next
    have hd : ordered op ds.lexemes = 0 := ihd
    simp [lexemes, meaning, ihc base next, hd, Keyword.orders]
  | noDeclarations | endDeclarations | endVariables => rfl
  | declarations first more ihf ihm =>
    have hf : ordered op first.lexemes = 0 := ihf
    have hm : ordered op more.lexemes = 0 := ihm
    simp [Meaning.Balanced, lexemes, hf, hm]
  | moreDeclarations rest ih | moreVariables rest ih | variableNames name rest ih =>
    have hrest : ordered op rest.lexemes = 0 := ih
    simp [Meaning.Balanced, lexemes, hrest]
  | varDeclaration type names iht ihn =>
    have ht : ordered op type.lexemes = 0 := iht
    have hn : ordered op names.lexemes = 0 := ihn
    simp [Meaning.Balanced, lexemes, ht, hn]
  | varType type => simp [Meaning.Balanced, lexemes]
  | commands first more ihf ihm =>
    intro base next
    simp [lexemes, meaning, Statement.code, ihf base next, ihm _ _]
  | endCommands | noElse =>
    intro base next
    rfl
  | separated rest ih =>
    intro base next
    simp [lexemes, meaning, ih base next]
  | juxtaposed rest ih => exact ih
  | read name | write name =>
    intro base next
    simp [lexemes, meaning, Statement.code, Keyword.orders, Operator.written]
  | assign name value ih =>
    intro base next
    simp [lexemes, meaning, Statement.code, ih next, Operator.written]
    omega
  | conditional test onTrue onFalse iht iha ihb =>
    intro base next
    simp [lexemes, meaning, Statement.emitted_ite, iht next, iha _ _, ihb _ _, Keyword.orders]
    omega
  | loop test cs iht ihc =>
    intro base next
    simp [lexemes, meaning, Statement.emitted_loop, iht next, ihc _ _, Keyword.orders]
    omega
  | elseBranch cs ih =>
    intro base next
    simp [lexemes, meaning, ih base next, Keyword.orders]
  | condition left r right ihl ihc ihr =>
    intro next
    have hc : ordered op r.lexemes = [Comparison.operator r.meaning].count op := ihc
    simp [lexemes, meaning, Test.code, ihl next, ihr _, hc]
    omega
  | relation c => simp [Meaning.Balanced, lexemes, meaning]
  | expression first more ihf ihm =>
    intro next
    simp [lexemes, meaning, ihm _ _, ihf next]
  | endTerms | endFactors =>
    intro left next
    rfl
  | otherTerms o additive right more ihn ihm | moreFactors o multiplicative right more ihn ihm =>
    intro left next
    simp [lexemes, meaning, ihm _ _, Expression.code, ihn _]
    omega
  | term s first more ihs ihf ihm =>
    intro next
    have hs : ordered op s.lexemes =
        if s.meaning = true then [Operator.subtract].count op else 0 := ihs
    simp only [lexemes, meaning, ihm _ _, ordered_append, hs]
    split
    · simp [Expression.code, ihf next, Operator.written]
      omega
    · rw [ihf next]
      omega
  | sign | noSign => simp [Meaning.Balanced, lexemes, meaning, Arithmetic.operator]
  | identifier name | literal type text =>
    intro next
    simp [lexemes, meaning, Expression.code]
  | parenthesized inner ih =>
    intro next
    simp [lexemes, meaning, ih next]

/-! ## 3. Tokens -/

/-- The number of instructions that some lexemes ask for, by the sorts of lexemes that do. -/
def orderCount (ls : List Lexeme) : Nat :=
  ls.count Keyword.readWord.lexeme + ls.count Keyword.writeWord.lexeme + ls.countP (·.2 = ":=") +
    ls.countP (·.1 = .operator) + ls.countP (·.1 = .relational) +
    2 * ls.count Keyword.ifWord.lexeme +
    2 * ls.count Keyword.whileWord.lexeme

theorem orderCount_cons (l : Lexeme) (ls : List Lexeme) :
    orderCount (l :: ls) = orderCount [l] + orderCount ls := by
  simp only [orderCount, List.count_cons, List.countP_cons, List.count_nil, List.countP_nil]
  omega

/-- A terminal asks for the instructions that it is counted for. -/
theorem orderCount_singleton {t : Token} {a : Terminal} (h : t.terminal? = some a)
    (hspells : t.kind.Spells t.text) : orderCount [t.lexeme] = (Lexeme.orders t.lexeme).length := by
  cases ha : a.lexeme? with
  | some l =>
    have hfixed : ∀ b ∈ Terminal.fixed, ∀ l ∈ b.lexeme?,
        orderCount [l] = (Lexeme.orders l).length := by decide +kernel
    rw [(Token.terminal?_eq_some_iff ha).mp h]
    exact hfixed a (Terminal.mem_fixed ha) l ha
  | none =>
    have hkind : t.kind = .identifier ∨ t.kind = .integer ∨ t.kind = .float := by
      cases a with
      | identifier => exact .inl (Token.terminal?_class_iff.1.mp h)
      | integer => exact .inr (.inl (Token.terminal?_class_iff.2.1.mp h))
      | float => exact .inr (.inr (Token.terminal?_class_iff.2.2.mp h))
      | _ => cases ha
    have htext : t.text ≠ ":=" := by
      intro htext
      rw [htext] at hspells
      simp [hspells.eq_attributor] at hkind
    rcases hkind with hk | hk | hk <;>
      simp [orderCount, Lexeme.orders, Token.lexeme, Keyword.lexeme, hk, htext]

theorem orderCount_eq {ts : List Token}
    (h : ∀ t ∈ ts, ∃ a, t.terminal? = some a ∧ t.kind.Spells t.text) :
    orderCount (ts.map Token.lexeme) = ((ts.map Token.lexeme).flatMap Lexeme.orders).length := by
  induction ts with
  | nil => rfl
  | cons t ts ih =>
    obtain ⟨⟨a, ha, hspells⟩, hts⟩ := List.forall_mem_cons.mp h
    rw [List.map_cons, orderCount_cons, orderCount_singleton ha hspells, ih hts, List.flatMap_cons,
      List.length_append]

theorem operatorCount_eq (ts : List Token) :
    operatorCount ts = ts.countP (·.kind = .operator) + ts.countP (·.kind = .relational) := by
  induction ts with
  | nil => rfl
  | cons t ts ih =>
    rw [operatorCount, List.countP_cons, ← operatorCount, ih, List.countP_cons, List.countP_cons]
    cases hk : t.kind <;> simp [Token.operates, hk] <;> omega

theorem count_lexeme (ts : List Token) (k : Keyword) :
    (ts.map Token.lexeme).count k.lexeme = ts.countP (·.isKeyword k) := by
  rw [List.count, List.countP_map]
  refine List.countP_congr fun t _ => ?_
  rw [isKeyword_iff_lexeme]
  exact beq_iff_eq

/-- The same number, by the tokens. -/
theorem orderCount_map_lexeme (ts : List Token) :
    orderCount (ts.map Token.lexeme) =
      ts.countP (·.isKeyword .readWord) + ts.countP (·.isKeyword .writeWord) +
      ts.countP (·.text = ":=") + ts.countP (·.kind = .operator) +
      ts.countP (·.kind = .relational) +
      2 * ts.countP (·.isKeyword .ifWord) + 2 * ts.countP (·.isKeyword .whileWord) := by
  have hbecomes : (ts.map Token.lexeme).countP (·.2 = ":=") = ts.countP (·.text = ":=") :=
    List.countP_map
  have hkind : ∀ kind, (ts.map Token.lexeme).countP (·.1 = kind) = ts.countP (·.kind = kind) :=
    fun _ => List.countP_map
  rw [orderCount, count_lexeme, count_lexeme, count_lexeme, count_lexeme, hbecomes, hkind, hkind]

/-! ## 4. Programs -/

/-- **The instructions of a program**, in another order. -/
theorem Tree.written_perm (tree : Tree .program) :
    (tree.meaning.code.map (·.op.written)).Perm
      (List.replicate tree.meaning.symbols.length .alloc ++
      (tree.lexemes.flatMap Lexeme.orders ++ [.halt])) := by
  rw [List.perm_iff_count]
  intro op
  have hbody := tree.balanced op tree.meaning.symbols.length 1
  have hallocs : emitted op (tree.meaning.symbols.map Symbol.alloc) =
      (List.replicate tree.meaning.symbols.length Operator.alloc).count op := by
    rw [emitted, List.map_map, ← List.map_const']
    rfl
  have hcode : (tree.meaning.code.map (·.op.written)).count op = emitted op tree.meaning.code := rfl
  rw [hcode, SourceProgram.code, emitted_append, emitted_append, hallocs, hbody, List.count_append,
    List.count_append, Nat.add_assoc]
  rfl

namespace Accepted

variable {source : String} {a : Analysis} {tree : Tree .program}

theorem exists_terminal (h : Accepted source a tree) {t : Token}
    (ht : t ∈ (sourceStream source).tokens) : ∃ b, t.terminal? = some b ∧ t.kind.Spells t.text := by
  obtain ⟨word, -, hword⟩ := h.derivable
  have hmem : t.terminal? ∈ word.map some := by
    rw [← hword]
    exact List.mem_map_of_mem ht
  obtain ⟨b, -, hb⟩ := List.mem_map.mp hmem
  exact ⟨b, hb.symm, sourceStream_spells ht⟩

/-- **The size of a program**, by its tokens. -/
theorem size_quads (h : Accepted source a tree) :
    a.program.quads.size =
      a.symbols.symbols.size + orderCount ((sourceStream source).tokens.map Token.lexeme) + 1 := by
  have hlength := tree.written_perm.length_eq
  rw [← h.code, ← h.symbols, ← h.lexemes] at hlength
  rw [orderCount_eq fun t ht => h.exists_terminal ht]
  simpa [Nat.add_assoc] using hlength

end Accepted

/-- The code of a program and its temporaries are those that its tokens ask for. -/
structure Census (ts : List Token) (a : Analysis) (drawn : Nat) : Prop where
  size : a.program.quads.size = a.symbols.symbols.size + ts.countP (·.isKeyword .readWord) +
    ts.countP (·.isKeyword .writeWord) + ts.countP (·.text = ":=") +
    ts.countP (·.kind = .operator) +
    ts.countP (·.kind = .relational) + 2 * ts.countP (·.isKeyword .ifWord) +
    2 * ts.countP (·.isKeyword .whileWord) + 1
  temps : drawn = ts.countP (·.kind = .operator) + ts.countP (·.kind = .relational)
  /-- each instruction is there as often as it is asked for -/
  instructions : (a.program.quads.toList.map (·.op.written)).Perm
    (List.replicate a.symbols.symbols.size .alloc ++
      ((ts.map Token.lexeme).flatMap Lexeme.orders ++ [.halt]))
  /-- each operation has a temporary of its own -/
  results : (a.program.quads.toList.filter (·.op.computes)).map Quad.result =
    (List.range' 1 drawn).map (fun t => some (.temp t))

namespace Analysis

/-- **The size of the code is fixed by the tokens.** The code of a program has one instruction for
each variable, for each `read` and `write`, for each `:=` and for each operator, two for each
conditional and for each loop, and one at its end. Each operation draws one temporary. -/
theorem size_by_tokens {source : String} {a : Analysis} (h : (ofSource source).1 = .ok a) :
    ∃ ts s, (Lexer.ofSource source).tokens.answer = .ok ts ∧ run source = .ok a s ∧
      Census ts a s.generator.temps := by
  obtain ⟨s, hrun⟩ := exists_run_of_ok h
  obtain ⟨tree, haccepted, hdrawn, htemps, -⟩ := exists_accepted_of_run hrun
  have hsymbols : a.symbols.symbols.size = tree.meaning.symbols.length := by
    rw [← haccepted.symbols, Array.length_toList]
  refine ⟨_, s, tokens_ofSource_eq_ok_iff.mpr (by rw [← haccepted.error]), hrun, ?_, ?_, ?_, ?_⟩
  · have hsize := haccepted.size_quads
    rw [orderCount_map_lexeme] at hsize
    simpa only [Nat.add_assoc] using hsize
  · rw [hdrawn, operatorCount_eq]
  · rw [hsymbols, haccepted.code, haccepted.lexemes]
    exact tree.written_perm
  · rw [htemps, haccepted.code]
    exact tree.meaning.results_code

theorem size_by_tokens_countdown :
    ∃ a, (ofSource countdown).1 = .ok a ∧
    ∃ ts s, (Lexer.ofSource countdown).tokens.answer = .ok ts ∧ run countdown = .ok a s ∧
      Census ts a s.generator.temps := by
  obtain ⟨a, ha, -⟩ := exists_ofSource_countdown
  exact ⟨a, ha, size_by_tokens ha⟩

end Analysis

end ThreeAddress
