import ThreeAddress.Proofs.Analysis.Outcome
import ThreeAddress.Proofs.Code.Instructions
import ThreeAddress.Proofs.Lexer.Vocabulary

/-!
# The operands of an accepted program

The variables and the literals in the code of a program are leaves of its parse tree, so they are
tokens of the source (`Tree.uses_meaning`). The lexer says how they are spelled, and the rules about
names say that the variables are declared. Both come together in `Accepted.instruction_of_mem`.
-/

namespace ThreeAddress

variable {names literals : String → Prop}

/-! ## 1. Leaves -/

/-- The lexeme is no identifier other than `names` and no literal other than `literals`. -/
def Lexeme.Allowed (names literals : String → Prop) (l : Lexeme) : Prop :=
  (l.1 = .identifier → names l.2) ∧ ∀ type : VarType, l.1 = type.literalKind → literals l.2

/-- The variables and literals in the meaning of a tree are among the given ones. -/
def Meaning.Uses (names literals : String → Prop) : (A : NonTerminal) → Meaning A → Prop
  | .program, p => (∀ v ∈ p.symbols, names v.name) ∧ Statement.Uses names literals p.body
  | .body, b => (∀ v ∈ b.1, names v.name) ∧ Statement.Uses names literals b.2
  | .declarations, vs | .moreDeclarations, vs | .varDeclaration, vs => ∀ v ∈ vs, names v.name
  | .variableNames, ns | .moreVariables, ns => ∀ name ∈ ns, names name
  | .commands, s | .moreCommands, s | .command, s | .elseBranch, s =>
    Statement.Uses names literals s
  | .condition, t => Test.Uses names literals t
  | .expression, e | .term, e | .factor, e => Expression.Uses names literals e
  -- what stands to the left is not known yet
  | .otherTerms, f | .moreFactors, f =>
    ∀ e, Expression.Uses names literals e → Expression.Uses names literals (f e)
  | .varType, _ | .relation, _ | .unaryOp, _ => True

/-- **A program uses the variables and literals at the leaves of its tree.** -/
theorem Tree.uses_meaning {A : NonTerminal} (tree : Tree A)
    (h : ∀ l ∈ tree.lexemes, Lexeme.Allowed names literals l) :
    Meaning.Uses names literals A tree.meaning := by
  induction tree with
  | program name b ih =>
    simp only [lexemes, List.forall_mem_cons, List.forall_mem_append] at h
    exact ih h.2.2.1
  | body ds cs ihd ihc =>
    simp only [lexemes, List.forall_mem_cons, List.forall_mem_append] at h
    exact ⟨ihd h.1, ihc h.2.2.1⟩
  | noDeclarations | endDeclarations | endVariables => exact fun _ hv => absurd hv List.not_mem_nil
  | declarations first more ihf ihm =>
    simp only [lexemes, List.forall_mem_append] at h
    exact List.forall_mem_append.mpr ⟨ihf h.1, ihm h.2⟩
  | moreDeclarations rest ih => exact ih (List.forall_mem_cons.mp h).2
  | varDeclaration type names iht ihn =>
    simp only [lexemes, List.forall_mem_cons, List.forall_mem_append] at h
    exact List.forall_mem_map.mpr (ihn h.2.2)
  | variableNames name more ih =>
    simp only [lexemes, List.forall_mem_cons] at h
    exact List.forall_mem_cons.mpr ⟨h.1.1 rfl, ih h.2⟩
  | moreVariables rest ih => exact ih (List.forall_mem_cons.mp h).2
  | commands first more ihf ihm =>
    simp only [lexemes, List.forall_mem_append] at h
    exact ⟨ihf h.1, ihm h.2⟩
  | endCommands | noElse | varType | relation | sign | noSign => trivial
  | separated rest ih => exact ih (List.forall_mem_cons.mp h).2
  | juxtaposed rest ih => exact ih h
  | read name | write name => exact (h (.identifier, name) (by simp [lexemes])).1 rfl
  | assign name value ih =>
    simp only [lexemes, List.forall_mem_cons] at h
    exact ⟨h.1.1 rfl, ih h.2.2⟩
  | conditional test onTrue onFalse iht iha ihb =>
    simp only [lexemes, List.forall_mem_cons, List.forall_mem_append] at h
    exact ⟨iht h.2.1, iha h.2.2.2.1, ihb h.2.2.2.2.1⟩
  | loop test cs iht ihc =>
    simp only [lexemes, List.forall_mem_cons, List.forall_mem_append] at h
    exact ⟨iht h.2.1, ihc h.2.2.2.1⟩
  | elseBranch cs ih => exact ih (List.forall_mem_cons.mp h).2
  | condition left r right ihl ihc ihr =>
    simp only [lexemes, List.forall_mem_append] at h
    exact ⟨ihl h.1, ihr h.2.2⟩
  | expression first more ihf ihm =>
    simp only [lexemes, List.forall_mem_append] at h
    exact ihm h.2 _ (ihf h.1)
  | endTerms | endFactors => exact fun _ he => he
  | otherTerms op additive next more ihn ihm =>
    simp only [lexemes, List.forall_mem_cons, List.forall_mem_append] at h
    exact fun left hleft => ihm h.2.2 _ ⟨hleft, ihn h.2.1⟩
  | term s first more ihs ihf ihm =>
    simp only [lexemes, List.forall_mem_append] at h
    refine ihm h.2.2 _ ?_
    split
    · exact ihf h.2.1
    · exact ihf h.2.1
  | identifier name => exact (h (.identifier, name) List.mem_cons_self).1 rfl
  | literal type text => exact (h (type.literalKind, text) List.mem_cons_self).2 type rfl
  | parenthesized inner ih =>
    simp only [lexemes, List.forall_mem_cons, List.forall_mem_append] at h
    exact ih h.2.1
  | moreFactors op multiplicative next more ihn ihm =>
    simp only [lexemes, List.forall_mem_cons, List.forall_mem_append] at h
    exact fun left hleft => ihm h.2.2 _ ⟨hleft, ihn h.2.1⟩

/-! ## 2. Tokens -/

/-- The commands of a program are in its command part. -/
theorem exists_mem_commandPart {ts : List Token} {name : String} {ds : Tree .declarations}
    {cs : Tree .commands} (h : ts.map Token.lexeme = (Tree.program name (.body ds cs)).lexemes)
    {l : Lexeme} (hl : l ∈ cs.lexemes) : ∃ t ∈ commandPart ts, t.lexeme = l := by
  simp only [Tree.lexemes, List.append_assoc, List.cons_append] at h
  obtain ⟨t₀, ts₁, rfl, -, h⟩ := List.map_eq_cons_iff.mp h
  obtain ⟨t₁, ts₂, rfl, -, h⟩ := List.map_eq_cons_iff.mp h
  obtain ⟨us, ts₃, rfl, hus, h⟩ := List.map_eq_append_iff.mp h
  obtain ⟨t, ts₄, rfl, ht, h⟩ := List.map_eq_cons_iff.mp h
  obtain ⟨vs, ts₅, rfl, hvs, -⟩ := List.map_eq_append_iff.mp h
  -- no `begin` comes before the one in front of the commands
  have hdeclarations : ∀ u ∈ us, (!u.isKeyword .beginWord) = true := by
    intro u hu
    rw [Bool.not_eq_true', ← Bool.not_eq_true, isKeyword_iff_lexeme]
    intro hbegin
    refine begin_not_mem_lexemes ds (by decide) ?_
    rw [← hus, ← hbegin]
    exact List.mem_map_of_mem hu
  rw [← hvs] at hl
  obtain ⟨v, hv, rfl⟩ := List.mem_map.mp hl
  refine ⟨v, ?_, rfl⟩
  show v ∈ (us ++ t :: (vs ++ ts₅)).dropWhile _
  rw [List.dropWhile_append_of_pos hdeclarations,
    List.dropWhile_cons_of_neg (by simp [isKeyword_iff_lexeme.mpr ht])]
  simp [hv]

theorem exists_of_mem_identifiers {ts : List Token} {name : String} (h : name ∈ identifiers ts) :
    ∃ t ∈ ts, t.kind = .identifier ∧ t.text = name := by
  simpa [identifiers, and_assoc] using h

theorem mem_identifiers {ts : List Token} {t : Token} (h : t ∈ ts) (hk : t.kind = .identifier) :
    t.text ∈ identifiers ts :=
  List.mem_map_of_mem (List.mem_filter.mpr ⟨h, by simpa using hk⟩)

/-! ## 3. Accepted programs -/

/-- The text is spelled like an identifier. -/
def IsIdentifier (text : String) : Prop :=
  TokenKind.identifier.Spells text

/-- The text is spelled like a literal. -/
def IsLiteral (text : String) : Prop :=
  ∃ type : VarType, type.literalKind.Spells text

/-- The name of a variable that the program declares. -/
def Analysis.Declares (a : Analysis) (name : String) : Prop :=
  name ∈ a.symbols.symbols.toList.map Symbol.name ∧ IsIdentifier name

namespace Accepted

variable {source : String} {a : Analysis} {tree : Tree .program}

theorem declares (h : Accepted source a tree) {v : Symbol} (hv : v ∈ tree.meaning.symbols) :
    a.Declares v.name := by
  have hname : v.name ∈ tree.meaning.symbols.map Symbol.name := List.mem_map_of_mem hv
  refine ⟨by rwa [h.symbols], ?_⟩
  rw [h.names] at hname
  obtain ⟨t, ht, hk, hname⟩ := exists_of_mem_identifiers hname
  have htoken : t ∈ (sourceStream source).tokens :=
    List.mem_of_mem_drop ((List.takeWhile_sublist _).mem ht)
  have hspells := sourceStream_spells htoken
  rwa [hk, hname] at hspells

/-- The commands use declared variables and literals. -/
theorem uses_body (h : Accepted source a tree) : tree.meaning.body.Uses a.Declares IsLiteral := by
  cases tree with | program name b => cases b with | body ds cs =>
  refine cs.uses_meaning fun l hl => ?_
  obtain ⟨t, ht, rfl⟩ := exists_mem_commandPart h.lexemes hl
  have htoken : t ∈ (sourceStream source).tokens :=
    List.mem_of_mem_drop ((List.dropWhile_sublist _).mem ht)
  have hspells := sourceStream_spells htoken
  refine ⟨fun hk => ⟨?_, ?_⟩, fun type hk => ⟨type, ?_⟩⟩
  · rw [h.symbols, h.names]
    exact (wellNamed_iff.mp h.wellNamed).2 t.text (mem_identifiers ht hk)
  · rwa [show t.kind = .identifier from hk] at hspells
  · rwa [show t.kind = type.literalKind from hk] at hspells

/-- **The operands of an accepted program** are its declared variables, literals, temporaries and
jump targets. -/
theorem instruction_of_mem (h : Accepted source a tree) {q : Quad}
    (hq : q ∈ a.program.quads.toList) : Instruction a.Declares IsLiteral q := by
  rw [h.code] at hq
  exact SourceProgram.instruction_of_mem (fun v hv => h.declares hv) h.uses_body hq

end Accepted

end ThreeAddress
