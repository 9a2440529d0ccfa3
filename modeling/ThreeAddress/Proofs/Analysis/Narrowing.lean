import ThreeAddress.Proofs.Analysis.Operands
import ThreeAddress.Proofs.Compilation
import ThreeAddress.Proofs.Syntax.Assignments

/-!
# Warnings about narrowing

A real value that goes to an integer variable is worth a warning. The analysis finds the type of a
value from the bottom up, while it emits code. In the source it can be seen at once: a value is real
if a real literal or a real variable is anywhere in it, because no operation and no parenthesis
makes it an integer again (`Tree.typed`).

So the warnings of an analysis are found by going through the assignments of the source
(`Analysis.warnings_exact`).
-/

namespace ThreeAddress

variable {declared : String → Option VarType}

/-! ## 1. The type of a right side -/

/-- Whether a lexeme is a real literal or a real variable. -/
def Lexeme.isReal (declared : String → Option VarType) (l : Lexeme) : Bool :=
  l.1 = .float ∨ l.1 = .identifier ∧ declared l.2 = some .real

/-- The type of an expression with these lexemes: real as soon as one of them is. -/
def typeOf (declared : String → Option VarType) (ls : List Lexeme) : VarType :=
  if ls.any (Lexeme.isReal declared) then .real else .integer

theorem typeOf_append (ls ls' : List Lexeme) :
    typeOf declared (ls ++ ls') = (typeOf declared ls).widen (typeOf declared ls') := by
  rw [typeOf, typeOf, typeOf, List.any_append]
  cases ls.any (Lexeme.isReal declared) <;> cases ls'.any (Lexeme.isReal declared) <;> rfl

/-- Operators and parentheses have no type. -/
theorem typeOf_cons_of_not_isReal {l : Lexeme} (h : Lexeme.isReal declared l = false)
    (ls : List Lexeme) : typeOf declared (l :: ls) = typeOf declared ls := by
  rw [typeOf, List.any_cons, h, Bool.false_or, typeOf]

theorem VarType.widen_integer (type : VarType) : type.widen .integer = type := by
  cases type <;> rfl

theorem VarType.integer_widen (type : VarType) : integer.widen type = type := by
  cases type <;> rfl

theorem VarType.widen_assoc (a b c : VarType) : (a.widen b).widen c = a.widen (b.widen c) := by
  cases a <;> cases b <;> cases c <;> rfl

/-- The type of an expression is that of its lexemes. -/
def Meaning.Typed (declared : String → Option VarType) (ls : List Lexeme) :
    (A : NonTerminal) → Meaning A → Prop
  | .expression, e | .term, e | .factor, e =>
    Expression.type? declared e = some (typeOf declared ls)
  -- what stands to the left has a type of its own
  | .otherTerms, f | .moreFactors, f => ∀ e type, Expression.type? declared e = some type →
    Expression.type? declared (f e) = some (type.widen (typeOf declared ls))
  | .unaryOp, _ => typeOf declared ls = .integer
  | _, _ => True

/-- The variables among some lexemes are declared. -/
def AllDeclared (declared : String → Option VarType) (ls : List Lexeme) : Prop :=
  ∀ l ∈ ls, l.1 = .identifier → (declared l.2).isSome = true

theorem allDeclared_append {ls ls' : List Lexeme} :
    AllDeclared declared (ls ++ ls') ↔ AllDeclared declared ls ∧ AllDeclared declared ls' :=
  List.forall_mem_append

theorem allDeclared_cons {l : Lexeme} {ls : List Lexeme} :
    AllDeclared declared (l :: ls) ↔
      (l.1 = .identifier → (declared l.2).isSome = true) ∧ AllDeclared declared ls :=
  List.forall_mem_cons

/-- One more operand, behind those that have a type already. -/
theorem type?_binary {left right : Expression} {a b : VarType} (op : Arithmetic)
    (hl : left.type? declared = some a) (hr : right.type? declared = some b) :
    (Expression.binary op left right).type? declared = some (a.widen b) := by
  rw [Expression.type?, hl, hr]
  rfl

/-- **A value is real if and only if something real is in it.** -/
theorem Tree.typed {A : NonTerminal} (tree : Tree A) (h : AllDeclared declared tree.lexemes) :
    Meaning.Typed declared tree.lexemes A tree.meaning := by
  induction tree with
  | expression first more ihf ihm =>
    obtain ⟨hf, hm⟩ := allDeclared_append.mp h
    rw [lexemes, Meaning.Typed, typeOf_append]
    exact ihm hm _ _ (ihf hf)
  | endTerms | endFactors =>
    intro e type he
    exact he.trans (congrArg some type.widen_integer.symm)
  | otherTerms op additive next more ihn ihm | moreFactors op multiplicative next more ihn ihm =>
    obtain ⟨hn, hm⟩ := allDeclared_append.mp (allDeclared_cons.mp h).2
    intro left type hleft
    have hoperator : Lexeme.isReal declared op.lexeme = false := by
      simp [Lexeme.isReal, Arithmetic.lexeme]
    rw [lexemes, typeOf_cons_of_not_isReal hoperator, typeOf_append, ← VarType.widen_assoc]
    exact ihm hm _ _ (type?_binary op hleft (ihn hn))
  | term s first more ihs ihf ihm =>
    obtain ⟨hs, hrest⟩ := allDeclared_append.mp h
    obtain ⟨hf, hm⟩ := allDeclared_append.mp hrest
    have hsign : typeOf declared s.lexemes = .integer := ihs hs
    have hfirst : first.meaning.type? declared = some (typeOf declared first.lexemes) := ihf hf
    rw [lexemes, Meaning.Typed, typeOf_append, typeOf_append, hsign, VarType.integer_widen]
    refine ihm hm _ _ ?_
    -- a sign changes nothing about the type
    split
    · exact hfirst
    · exact hfirst
  | sign | noSign => rfl
  | identifier name =>
    obtain ⟨type, htype⟩ :=
      Option.isSome_iff_exists.mp (h (.identifier, name) List.mem_cons_self rfl)
    change declared name = some (typeOf declared [(.identifier, name)])
    rw [htype]
    cases type <;> simp [typeOf, Lexeme.isReal, htype]
  | literal type text => cases type <;> rfl
  | parenthesized inner ih =>
    have hinner := (allDeclared_append.mp (allDeclared_cons.mp h).2).1
    have hparens : typeOf declared (parenthesized inner).lexemes =
        typeOf declared inner.lexemes := by
      rw [lexemes, typeOf_cons_of_not_isReal rfl, typeOf_append]
      exact VarType.widen_integer _
    rw [Meaning.Typed, hparens]
    exact ih hinner
  | _ => trivial

/-! ## 2. Commands -/

/-- Whether an assignment gives a real value to an integer variable. -/
def narrows (declared : String → Option VarType) (x : String × List Lexeme) : Bool :=
  declared x.1 = some .integer ∧ x.2.any (Lexeme.isReal declared) = true

/-- The variables that the meaning of some commands narrows. -/
def Meaning.narrowings (declared : String → Option VarType) :
    (A : NonTerminal) → Meaning A → List String
  | .commands, s | .moreCommands, s | .command, s | .elseBranch, s =>
    Statement.narrowings declared s
  | _, _ => []

/-- The targets of the assignments that narrow. -/
def narrowed (declared : String → Option VarType) (xs : List (String × List Lexeme)) :
    List String :=
  (xs.filter (narrows declared)).map Prod.fst

theorem narrowed_append (xs ys : List (String × List Lexeme)) :
    narrowed declared (xs ++ ys) = narrowed declared xs ++ narrowed declared ys := by
  rw [narrowed, List.filter_append, List.map_append, narrowed, narrowed]

theorem narrowings_assign {name : String} {value : Tree .expression}
    (h : AllDeclared declared value.lexemes) :
    (Statement.assign name value.meaning).narrowings declared =
      narrowed declared [(name, value.lexemes)] := by
  have htype : value.meaning.type? declared = some (typeOf declared value.lexemes) := value.typed h
  have hreal : value.meaning.type? declared = some .real ↔
      value.lexemes.any (Lexeme.isReal declared) = true := by
    rw [htype, typeOf]
    cases value.lexemes.any (Lexeme.isReal declared) <;> simp
  have hnarrows : declared name = some .integer ∧ value.meaning.type? declared = some .real ↔
      narrows declared (name, value.lexemes) = true := by
    rw [hreal, narrows, decide_eq_true_iff]
  rw [Statement.narrowings, narrowed, List.filter_singleton]
  by_cases h : narrows declared (name, value.lexemes) = true
  · rw [if_pos (hnarrows.mpr h), h]
    rfl
  · rw [if_neg fun hc => h (hnarrows.mp hc), Bool.eq_false_iff.mpr h]
    rfl

/-- **The variables that commands narrow**, by the assignments among them. -/
theorem Tree.narrowings_meaning {A : NonTerminal} (tree : Tree A) (hA : A ∈ commandCategories)
    (h : AllDeclared declared tree.lexemes) :
    Meaning.narrowings declared A tree.meaning = narrowed declared tree.assignments := by
  induction tree with
  | commands first more ihf ihm =>
    obtain ⟨hf, hm⟩ := allDeclared_append.mp h
    rw [assignments, narrowed_append, ← ihf (by decide) hf, ← ihm (by decide) hm]
    rfl
  | endCommands | noElse | read | write => rfl
  | separated rest ih => exact ih (by decide) (allDeclared_cons.mp h).2
  | juxtaposed rest ih => exact ih (by decide) h
  | assign name value ih =>
    exact narrowings_assign (allDeclared_cons.mp (allDeclared_cons.mp h).2).2
  | conditional test onTrue onFalse iht iha ihb =>
    have hbranches := (allDeclared_cons.mp (allDeclared_append.mp (allDeclared_cons.mp h).2).2).2
    obtain ⟨ha, hrest⟩ := allDeclared_append.mp hbranches
    rw [assignments, narrowed_append, ← iha (by decide) ha,
      ← ihb (by decide) (allDeclared_append.mp hrest).1]
    rfl
  | loop test cs iht ihc =>
    have hbody := (allDeclared_cons.mp (allDeclared_append.mp (allDeclared_cons.mp h).2).2).2
    exact ihc (by decide) (allDeclared_append.mp hbody).1
  | elseBranch cs ih => exact ih (by decide) (allDeclared_cons.mp h).2
  | _ => exact absurd hA (by decide)

/-! ## 3. Warnings -/

/-- Only narrowing is worth a warning, and nothing is worse. -/
theorem select_warn (events : List Event) :
    LevelFilter.select (some .warn) events =
      (events.filterMap Event.narrowed?).map Event.narrowing := by
  induction events with
  | nil => rfl
  | cons e events ih =>
    rw [LevelFilter.select] at ih ⊢
    cases e with
    | narrowing name =>
      rw [List.filter_cons_of_pos rfl, ih]
      rfl
    | _ =>
      rw [List.filter_cons_of_neg Bool.false_ne_true, ih]
      rfl

namespace Accepted

variable {source : String} {a : Analysis} {tree : Tree .program}

theorem typeIn_eq (h : Accepted source a tree) :
    typeIn tree.meaning.symbols = a.symbols.lookup? := by
  funext name
  rw [← h.symbols]
  simp [typeIn, SymbolTable.lookup?]

/-- The commands of an accepted program use declared variables. -/
theorem allDeclared {name : String} {ds : Tree .declarations} {cs : Tree .commands}
    (h : Accepted source a (.program name (.body ds cs))) :
    AllDeclared a.symbols.lookup? cs.lexemes := by
  intro l hl hkind
  obtain ⟨t, ht, rfl⟩ := exists_mem_commandPart h.lexemes hl
  have hname := (wellNamed_iff.mp h.wellNamed).2 t.text (mem_identifiers ht hkind)
  rw [← h.names] at hname
  obtain ⟨v, hv, hvname⟩ := List.mem_map.mp hname
  rw [← h.typeIn_eq, typeIn, Option.isSome_map, List.find?_isSome]
  exact ⟨v, hv, decide_eq_true hvname⟩

/-- The variables that an accepted program narrows, by the assignments in its source. -/
theorem narrowings_body (h : Accepted source a tree) :
    tree.meaning.body.narrowings a.symbols.lookup? =
      narrowed a.symbols.lookup? tree.assignments := by
  cases tree with | program name b => cases b with | body ds cs =>
  exact cs.narrowings_meaning (by decide) h.allDeclared

end Accepted

namespace Analysis

/-- The level and the text of what is logged about an assignment. -/
def narrowingLine (x : String × List Lexeme) : Level × String :=
  (.warn, s!"assigning a real value to integer variable '{x.1}'")

/-- **Warnings about narrowing are exact.** Down to the level of warnings, an analysis logs one line
for each assignment in its source whose target is an integer variable and whose right side has a
real literal or a real variable in it, in the order of the assignments, and nothing else. -/
theorem warnings_exact {source : String} {a : Analysis} (h : (ofSource source).1 = .ok a) :
    ∃ ts, ∃ tree : Tree .program, (Lexer.ofSource source).tokens.answer = .ok ts ∧
      ts.map Token.lexeme = tree.lexemes ∧
      assignmentsIn (ts.map Token.lexeme) = tree.assignments ∧
      (LevelFilter.select (some .warn) (ofSource source).2).map (fun e => (e.level, e.message)) =
        ((assignmentsIn (ts.map Token.lexeme)).filter (narrows a.symbols.lookup?)).map
          narrowingLine := by
  obtain ⟨s, hrun⟩ := exists_run_of_ok h
  obtain ⟨tree, haccepted, -, -, hnarrowed⟩ := exists_accepted_of_run hrun
  have hlog : (ofSource source).2 = s.log.toList := by rw [ofSource, hrun]
  have hassignments : assignmentsIn ((sourceStream source).tokens.map Token.lexeme) =
      tree.assignments := by
    rw [haccepted.lexemes, tree.assignmentsIn_lexemes]
  refine ⟨_, tree, tokens_ofSource_eq_ok_iff.mpr (by rw [← haccepted.error]), haccepted.lexemes,
    hassignments, ?_⟩
  rw [hlog, select_warn, hnarrowed, haccepted.typeIn_eq, haccepted.narrowings_body, narrowed,
    hassignments, List.map_map, List.map_map]
  rfl

/-- A real value under parentheses in a conditional, an integer for a real variable, and a real
literal. -/
def mixed : String :=
  "program p integer: i; real: x begin if i < x then i := 2 * (x) $ x := i i := -1.5 end."

theorem warnings_exact_mixed :
    ∃ a, (ofSource mixed).1 = .ok a ∧
    (LevelFilter.select (some .warn) (ofSource mixed).2).length = 2 ∧
    ∃ ts, ∃ tree : Tree .program, (Lexer.ofSource mixed).tokens.answer = .ok ts ∧
      ts.map Token.lexeme = tree.lexemes ∧
      assignmentsIn (ts.map Token.lexeme) = tree.assignments ∧
      (LevelFilter.select (some .warn) (ofSource mixed).2).map (fun e => (e.level, e.message)) =
        ((assignmentsIn (ts.map Token.lexeme)).filter (narrows a.symbols.lookup?)).map
          narrowingLine := by
  have hrun : ((ofSource mixed).1.isOk,
      (LevelFilter.select (some .warn) (ofSource mixed).2).length) = (true, 2) := by
    decide +kernel
  obtain ⟨hok, hlength⟩ := Prod.mk.inj hrun
  cases h : (ofSource mixed).1 with
  | ok a => exact ⟨a, rfl, hlength, warnings_exact h⟩
  | error failure =>
    rw [h] at hok
    cases hok

end Analysis

end ThreeAddress
