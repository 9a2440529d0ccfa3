import ThreeAddress.Proofs.Analysis.Declarations
import ThreeAddress.Proofs.Syntax.Derivation

/-!
# How an analysis ends

An analysis reads the program that its source is, or it stops with a complaint that is justified.
The first case comes with the parse tree: its leaves are the tokens, its variables are the symbol
table and its code is the program (`Accepted`). The other case comes with the point of the complaint
(`Violates`). There is no third one: the recursion bound of an analysis is never used up.
-/

namespace ThreeAddress

open Grammar Analyzer ContextFreeRule

/-! ## 1. A whole source -/

variable {x : Scanned} {π : Point} {p : Products} {bound : Nat}

/-- What has been made for a program, up to its last instruction. -/
theorem quads_declareAll_execute (source : SourceProgram) :
    (((({} : Products).declareAll source.symbols).execute source.body).emit
      { op := .halt }).quads = source.code := by
  simp [Products.declareAll, Products.execute, Products.extend, Products.emit, SourceProgram.code]

/-- The answer of an analysis at the end of a source: a parse tree has been read, and the program
and the symbol table are those of its meaning. -/
structure Answered (x : Scanned) (π : Point) (a : Analysis) (p : Products) (tree : Tree .program) :
    Prop where
  point : π = ⟨[], 0, x.tokens, []⟩
  error : x.error = none
  lexemes : x.tokens.map Token.lexeme = tree.lexemes
  code : a.program.quads.toList = tree.meaning.code
  symbols : a.symbols.symbols.toList = tree.meaning.symbols
  declared : p.symbols = tree.meaning.symbols
  temps : p.temps = tree.meaning.body.operations
  narrowed : p.narrowed = tree.meaning.body.narrowings (typeIn tree.meaning.symbols)

theorem reads_wholeSource (hb : 4 * x.tokens.length + 2 ≤ bound) :
    Reads x ⟨[.nonterminal .program], 0, [], x.tokens⟩ {} (wholeSource bound)
      fun π a p => ∃ tree, Answered x π a p tree := by
  rw [wholeSource]
  refine .call (reads_program hb) fun u rest tree _ p htokens hu hp => ?_
  subst hp
  refine .consume_bind (fun hrest herror => ?_) fun t rest' _ => ?_
  · subst hrest
    rw [List.append_nil] at htokens
    refine .emit_bind fun _ => .get_bind fun s hs => ?_
    have hpending : s.generator.builder.pending = 0 := congrArg Products.pending hs
    have hfinish : s.generator.finish = .ok ⟨s.generator.builder.quads⟩ := by
      rw [Generator.finish, Builder.finish, hpending]
      rfl
    rw [hfinish]
    exact .pure ⟨tree, {
      point := by rw [htokens]; rfl
      error := herror
      lexemes := by rw [htokens, hu]
      code := (congrArg Products.quads hs).trans (quads_declareAll_execute tree.meaning)
      symbols := congrArg Products.symbols hs
      declared := rfl
      temps := Nat.zero_add _
      narrowed := rfl }⟩
  · -- nothing may follow a program
    exact .unexpected (by simp [ContextFreeRule.PredictiveTable.Stuck])

/-! ## 2. The run on a source -/

/-- The tokens of a source. -/
def scanned (source : String) : Scanned where
  toStream := sourceStream source
  semicolons t ht hk := ((sourceStream_liesIn source).1.tokens t ht).text_eq hk

/-- The analysis `a` is that of the program whose tokens are the leaves of the tree. -/
structure Accepted (source : String) (a : Analysis) (tree : Tree .program) : Prop where
  error : (sourceStream source).error = none
  lexemes : (sourceStream source).tokens.map Token.lexeme = tree.lexemes
  derivable : Derivable (sourceStream source).tokens
  wellNamed : WellNamed (sourceStream source).tokens
  code : a.program.quads.toList = tree.meaning.code
  symbols : a.symbols.symbols.toList = tree.meaning.symbols
  names : tree.meaning.symbols.map Symbol.name =
    identifiers (declarationPart (sourceStream source).tokens)
  distinct : (tree.meaning.symbols.map Symbol.name).Nodup

theorem Answered.accepted {source : String} {a : Analysis} {tree : Tree .program}
    (h : Answered (scanned source) π a p tree) (hsound : Sound (scanned source) π p) :
    Accepted source a tree := by
  obtain ⟨rfl, herror, hlexemes, hcode, hsymbols, hdeclared, -, -⟩ := h
  have hnames : tree.meaning.symbols.map Symbol.name =
      identifiers (declarationPart (sourceStream source).tokens) := by
    rw [← hdeclared]
    exact hsound.names
  refine ⟨herror, hlexemes, Tree.derivable hlexemes, hsound.wellNamed, hcode, hsymbols, hnames, ?_⟩
  rw [hnames]
  exact (wellNamed_iff.mp hsound.wellNamed).1

/-- The recursion bound of an analysis is enough. -/
theorem ending_run (source : String) :
    Ending (scanned source) (fun π a p => ∃ tree, Answered (scanned source) π a p tree)
      (Analysis.run source) := by
  have hlength : (scanned source).tokens.length ≤ source.length := (sourceStream_liesIn source).2
  have hbound : 4 * (scanned source).tokens.length + 2 ≤ Analysis.recursionBound source := by
    rw [Analysis.recursionBound]
    omega
  exact reads_wholeSource hbound ⟨rfl, .refl, .nil, rfl, rfl⟩ { lexer := Lexer.ofSource source }
    ⟨rfl, fun _ => rfl⟩ rfl

/-- What an analysis that is not rejected leaves behind, besides its answer. -/
theorem exists_accepted_of_run {source : String} {a : Analysis} {s : AnalysisState}
    (h : Analysis.run source = .ok a s) :
    ∃ tree,
      Accepted source a tree ∧ s.generator.temps = operatorCount (sourceStream source).tokens ∧
      s.generator.temps = tree.meaning.body.operations ∧
      s.log.toList.filterMap Event.narrowed? =
        tree.meaning.body.narrowings (typeIn tree.meaning.symbols) := by
  have hending := ending_run source
  rw [h] at hending
  obtain ⟨π, hsound, -, tree, hanswered⟩ := hending
  have hdrawn := hsound.drawn
  rw [hanswered.point] at hdrawn
  exact ⟨tree, hanswered.accepted hsound, hdrawn, hanswered.temps, hanswered.narrowed⟩

/-- **How an analysis ends.** -/
theorem run_outcome (source : String) :
    (∃ a s tree, Analysis.run source = .ok a s ∧ Accepted source a tree) ∨
    ∃ stop s, Analysis.run source = .error stop s ∧ Violates (scanned source) stop := by
  cases hrun : Analysis.run source with
  | ok a s =>
    obtain ⟨tree, haccepted, -⟩ := exists_accepted_of_run hrun
    exact .inl ⟨a, s, tree, rfl, haccepted⟩
  | error stop s =>
    have houtcome := ending_run source
    rw [hrun] at houtcome
    exact .inr ⟨stop, s, rfl, houtcome⟩

theorem ofSource_of_ok {source : String} {a : Analysis} {s : AnalysisState}
    (h : Analysis.run source = .ok a s) : (Analysis.ofSource source).1 = .ok a := by
  rw [Analysis.ofSource, h]

theorem ofSource_of_error {source : String} {stop : Stop} {s : AnalysisState}
    (h : Analysis.run source = .error stop s) :
    (Analysis.ofSource source).1 = .error (stop.locate source) := by
  rw [Analysis.ofSource, h]

theorem exists_run_of_ok {source : String} {a : Analysis}
    (h : (Analysis.ofSource source).1 = .ok a) : ∃ s, Analysis.run source = .ok a s := by
  cases hrun : Analysis.run source with
  | ok a' s =>
    rw [ofSource_of_ok hrun] at h
    cases h
    exact ⟨s, rfl⟩
  | error stop s =>
    rw [ofSource_of_error hrun] at h
    cases h

/-- An analysis that is not rejected has a parse tree. -/
theorem exists_accepted {source : String} {a : Analysis}
    (h : (Analysis.ofSource source).1 = .ok a) : ∃ tree, Accepted source a tree := by
  obtain ⟨s, hrun⟩ := exists_run_of_ok h
  obtain ⟨tree, haccepted, -⟩ := exists_accepted_of_run hrun
  exact ⟨tree, haccepted⟩

/-! ## 3. Answers that can be computed -/

namespace Analysis

variable {source : String}

/-- The report about a source that is rejected. -/
def rejection? (source : String) : Option Diagnostic :=
  match (ofSource source).1 with
  | .error (.rejected d) => some d
  | _ => none

theorem exists_of_map_rejection? {β : Type} {f : Diagnostic → β} {b : β}
    (h : (rejection? source).map f = some b) :
    ∃ d, (ofSource source).1 = .error (.rejected d) ∧ f d = b := by
  obtain ⟨d, hd, hb⟩ := Option.map_eq_some_iff.mp h
  unfold rejection? at hd
  split at hd
  · rename_i hanswer
    cases hd
    exact ⟨d, hanswer, hb⟩
  · cases hd

end Analysis

end ThreeAddress
