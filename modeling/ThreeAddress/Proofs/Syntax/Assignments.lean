import ThreeAddress.Proofs.Syntax.Separation
import ThreeAddress.Proofs.Syntax.Unambiguous

/-!
# The assignments of a program

An assignment is a name, the sign `:=` and an expression. `assignmentsIn` finds the assignments in a
list of lexemes from left to right, and it knows little of the grammar: the right side goes on as
long as operands and operators alternate. A command may follow without a semicolon, but the first
lexeme of a command cannot go on with an expression.

`Tree.assignments` takes them from the parse tree instead, and both are the same
(`Tree.assignmentsIn_lexemes`).
-/

namespace ThreeAddress

/-! ## 1. Assignments among lexemes -/

/-- The expression with which some lexemes begin: they belong to it as long as they can. Which
lexemes can depends on whether an operand has to come next. -/
def expressionPart (operand : Bool) : List Lexeme → List Lexeme
  | [] => []
  | l :: ls =>
    if operand then
      if l = Mark.leftParen.lexeme ∨ l.1 = .operator then l :: expressionPart true ls
      else if l.1 ∈ [.identifier, .integer, .float] then l :: expressionPart false ls
      else []
    else if l.1 = .operator then l :: expressionPart true ls
    else if l = Mark.rightParen.lexeme then l :: expressionPart false ls
    else []

/-- The assignments among some lexemes: the names in front of a `:=`, each with what is assigned to
it. -/
def assignmentsIn : List Lexeme → List (String × List Lexeme)
  | [] => []
  | l :: ls =>
    if l.1 = .identifier ∧ ls.head?.map Prod.fst = some .attributor then
      (l.2, expressionPart true ls.tail) :: assignmentsIn ls
    else assignmentsIn ls

/-- The lexemes go on neither with an assignment nor with an expression. -/
def Closes (ls : List Lexeme) : Prop :=
  ∀ l ∈ ls.head?, l.1 ≠ .attributor ∧ l.1 ≠ .operator ∧ l ≠ Mark.rightParen.lexeme

section

variable {l : Lexeme} {ls us : List Lexeme}

theorem closes_cons :
    Closes (l :: ls) ↔ l.1 ≠ .attributor ∧ l.1 ≠ .operator ∧ l ≠ Mark.rightParen.lexeme := by
  simp [Closes]

/-- An operator goes on with an expression, as a sign or behind an operand. -/
theorem expressionPart_cons_operator (h : l.1 = .operator) (operand : Bool) :
    expressionPart operand (l :: ls) = l :: expressionPart true ls := by
  cases operand <;> simp [expressionPart, h]

theorem Closes.expressionPart (h : Closes ls) : expressionPart false ls = [] := by
  cases ls with
  | nil => rfl
  | cons l ls =>
    obtain ⟨-, hoperator, hparen⟩ := closes_cons.mp h
    simp [ThreeAddress.expressionPart, hoperator, hparen]

theorem Closes.not_attributor (h : Closes ls) : ∀ l ∈ ls.head?, l.1 ≠ .attributor :=
  fun l hl => (h l hl).1

theorem assignmentsIn_cons_of_ne (h : l.1 ≠ .identifier) :
    assignmentsIn (l :: ls) = assignmentsIn ls := by
  rw [assignmentsIn, if_neg fun hl => h hl.1]

/-- Where there is no `:=`, there is no assignment. -/
theorem assignmentsIn_append_of_forall (hus : ∀ l ∈ us, l.1 ≠ .attributor)
    (hls : ∀ l ∈ ls.head?, l.1 ≠ .attributor) : assignmentsIn (us ++ ls) = assignmentsIn ls := by
  induction us with
  | nil => rfl
  | cons u us ih =>
    have hrest := (List.forall_mem_cons.mp hus).2
    have hhead : ∀ l ∈ (us ++ ls).head?, l.1 ≠ .attributor := by
      cases us with
      | nil => exact hls
      | cons v us => simpa using (List.forall_mem_cons.mp hrest).1
    rw [List.cons_append, assignmentsIn, if_neg, ih hrest]
    rintro ⟨-, hbecomes⟩
    obtain ⟨l, hl, hkind⟩ := Option.map_eq_some_iff.mp hbecomes
    exact hhead l hl hkind

end

/-! ## 2. Expressions -/

/-- Whether an operand has to come next, in front of a part of an expression and behind it. -/
def NonTerminal.awaits? : NonTerminal → Option (Bool × Bool)
  | expression | term | factor => some (true, false)
  | otherTerms | moreFactors => some (false, false)
  | unaryOp => some (true, true)
  | _ => none

/-- Whether there may be assignments in the trees of a category. -/
def NonTerminal.mayAssign : NonTerminal → Bool
  | program | body | commands | moreCommands | command | elseBranch => true
  | _ => false

namespace Tree

variable {A : NonTerminal}

/-- **A part of an expression belongs to the expression**, whatever comes behind it. -/
theorem expressionPart_append (tree : Tree A) {before after : Bool}
    (hA : A.awaits? = some (before, after)) (ls : List Lexeme) :
    expressionPart before (tree.lexemes ++ ls) = tree.lexemes ++ expressionPart after ls := by
  induction tree generalizing before after ls with
  | expression first more ihf ihm =>
    cases hA
    rw [lexemes, List.append_assoc, ihf rfl, ihm rfl, List.append_assoc]
  | endTerms | endFactors | noSign =>
    cases hA
    rfl
  | otherTerms op additive next more ihn ihm | moreFactors op multiplicative next more ihn ihm =>
    cases hA
    rw [lexemes, List.cons_append, expressionPart_cons_operator rfl, List.append_assoc, ihn rfl,
      ihm rfl, List.cons_append, List.append_assoc]
  | term s first more ihs ihf ihm =>
    cases hA
    rw [lexemes, List.append_assoc, ihs rfl, List.append_assoc, ihf rfl, ihm rfl, List.append_assoc,
      List.append_assoc]
  | sign =>
    cases hA
    exact expressionPart_cons_operator rfl true
  | identifier name =>
    cases hA
    simp [lexemes, expressionPart, Mark.lexeme]
  | literal type text =>
    cases hA
    cases type <;> simp [lexemes, expressionPart, Mark.lexeme, VarType.literalKind]
  | parenthesized inner ih =>
    cases hA
    have hclose : expressionPart false (Mark.rightParen.lexeme :: ls) =
        Mark.rightParen.lexeme :: expressionPart false ls := by
      simp [expressionPart, Mark.lexeme]
    rw [lexemes, List.cons_append, expressionPart, if_pos rfl, if_pos (.inl rfl), List.append_assoc,
      ih rfl, List.singleton_append, hclose, List.cons_append, List.append_assoc,
      List.singleton_append]
  | _ => cases hA

/-- There is no `:=` outside of commands. -/
theorem all_ne_attributor (tree : Tree A) (hA : A.mayAssign = false) :
    tree.lexemes.all (·.1 ≠ .attributor) = true := by
  induction tree with
  | program | body | commands | endCommands | separated | juxtaposed | read | write
  | assign => cases hA
  | conditional | loop | noElse | elseBranch => cases hA
  | literal type text => cases type <;> simp [lexemes, VarType.literalKind]
  | _ =>
    simp_all [lexemes, Mark.lexeme, Arithmetic.lexeme, NonTerminal.mayAssign, -List.all_eq_true]

theorem not_attributor (tree : Tree A) (hA : A.mayAssign = false) :
    ∀ l ∈ tree.lexemes, l.1 ≠ .attributor := by
  simpa only [List.all_eq_true, decide_eq_true_iff] using tree.all_ne_attributor hA

/-! ## 3. Commands -/

/-- The assignments of a tree, from left to right. -/
def assignments : {A : NonTerminal} → Tree A → List (String × List Lexeme)
  | _, program _ b => b.assignments
  | _, body _ cs => cs.assignments
  | _, commands first more => first.assignments ++ more.assignments
  | _, separated rest | _, juxtaposed rest => rest.assignments
  | _, assign name value => [(name, value.lexemes)]
  | _, conditional _ onTrue onFalse => onTrue.assignments ++ onFalse.assignments
  | _, loop _ cs => cs.assignments
  | _, elseBranch cs => cs.assignments
  | _, _ => []

theorem closes_commands (cs : Tree .commands) (ls : List Lexeme) : Closes (cs.lexemes ++ ls) := by
  obtain ⟨l, rest, hcs, hl⟩ := head_commands cs
  rw [hcs, List.cons_append, closes_cons]
  simp only [startsCommand, decide_eq_true_eq] at hl
  rcases hl with hl | hl
  · simp [hl, Mark.lexeme, Prod.ext_iff]
  · fin_cases hl <;> simp [Keyword.lexeme, Mark.lexeme]

theorem closes_moreCommands (more : Tree .moreCommands) {ls : List Lexeme} (h : Closes ls) :
    Closes (more.lexemes ++ ls) := by
  cases more with
  | endCommands => exact h
  | separated rest => exact closes_cons.mpr (by decide)
  | juxtaposed rest => exact closes_commands rest ls

theorem closes_elseBranch (onFalse : Tree .elseBranch) {ls : List Lexeme} (h : Closes ls) :
    Closes (onFalse.lexemes ++ ls) := by
  cases onFalse with
  | noElse => exact h
  | elseBranch cs => exact closes_cons.mpr (by decide)

theorem assignmentsIn_assign (name : String) (value : Tree .expression) {ls : List Lexeme}
    (h : Closes ls) :
    assignmentsIn ((assign name value).lexemes ++ ls) =
      (name, value.lexemes) :: assignmentsIn ls := by
  have hvalue : expressionPart true (value.lexemes ++ ls) = value.lexemes := by
    rw [value.expressionPart_append rfl, h.expressionPart, List.append_nil]
  rw [lexemes, List.cons_append, List.cons_append, assignmentsIn, if_pos ⟨rfl, rfl⟩,
    assignmentsIn_cons_of_ne TokenKind.noConfusion,
    assignmentsIn_append_of_forall (value.not_attributor rfl) h.not_attributor, List.tail_cons,
    hvalue]

/-- A condition is passed over, up to the word behind it. -/
theorem assignmentsIn_condition (test : Tree .condition) (k : Keyword) (ls : List Lexeme) :
    assignmentsIn (test.lexemes ++ k.lexeme :: ls) = assignmentsIn ls := by
  have hhead : ∀ l ∈ (k.lexeme :: ls).head?, l.1 ≠ .attributor := by
    rintro l ⟨⟩
    exact TokenKind.noConfusion
  rw [assignmentsIn_append_of_forall (test.not_attributor rfl) hhead,
    assignmentsIn_cons_of_ne TokenKind.noConfusion]

/-- **The assignments of some commands**, in front of what cannot go on with the last one. -/
theorem assignmentsIn_append (tree : Tree A) (hA : A ∈ commandCategories) {ls : List Lexeme}
    (h : Closes ls) :
    assignmentsIn (tree.lexemes ++ ls) = tree.assignments ++ assignmentsIn ls := by
  induction tree generalizing ls with
  | commands first more ihf ihm =>
    rw [lexemes, List.append_assoc, ihf (by decide) (closes_moreCommands more h), ihm (by decide) h,
      assignments, List.append_assoc]
  | endCommands | noElse => rfl
  | separated rest ih =>
    rw [lexemes, List.cons_append, assignmentsIn_cons_of_ne TokenKind.noConfusion, ih (by decide) h,
      assignments]
  | juxtaposed rest ih => exact ih (by decide) h
  | read name | write name =>
    exact assignmentsIn_append_of_forall (by simp [lexemes, Keyword.lexeme, Mark.lexeme])
      h.not_attributor
  | assign name value ih => exact assignmentsIn_assign name value h
  | conditional test onTrue onFalse iht iha ihb =>
    have hdollar : Closes (Mark.dollar.lexeme :: ls) := closes_cons.mpr (by decide)
    simp only [lexemes, List.cons_append, List.append_assoc, List.nil_append]
    rw [assignmentsIn_cons_of_ne TokenKind.noConfusion, assignmentsIn_condition,
      iha (by decide) (closes_elseBranch onFalse hdollar), ihb (by decide) hdollar,
      assignmentsIn_cons_of_ne TokenKind.noConfusion, assignments, List.append_assoc]
  | loop test cs iht ihc =>
    have hdollar : Closes (Mark.dollar.lexeme :: ls) := closes_cons.mpr (by decide)
    simp only [lexemes, List.cons_append, List.append_assoc, List.nil_append]
    rw [assignmentsIn_cons_of_ne TokenKind.noConfusion, assignmentsIn_condition,
      ihc (by decide) hdollar, assignmentsIn_cons_of_ne TokenKind.noConfusion, assignments]
  | elseBranch cs ih =>
    rw [lexemes, List.cons_append, assignmentsIn_cons_of_ne TokenKind.noConfusion, ih (by decide) h,
      assignments]
  | _ => exact absurd hA (by decide)

/-- **The assignments of a program**, found in its lexemes. -/
theorem assignmentsIn_lexemes (tree : Tree .program) :
    assignmentsIn tree.lexemes = tree.assignments := by
  cases tree with | program name b => cases b with | body ds cs =>
  have hheading : ∀ l ∈ (.identifier, name) :: ds.lexemes, l.1 ≠ .attributor :=
    List.forall_mem_cons.mpr ⟨TokenKind.noConfusion, ds.not_attributor rfl⟩
  have hbegin : ∀ ls, ∀ l ∈ (Keyword.beginWord.lexeme :: ls).head?, l.1 ≠ .attributor := by
    rintro ls l ⟨⟩
    exact TokenKind.noConfusion
  have hend : Closes [Keyword.endWord.lexeme, Mark.point.lexeme] := closes_cons.mpr (by decide)
  simp only [lexemes, List.append_assoc, List.cons_append, List.nil_append]
  rw [assignmentsIn_cons_of_ne TokenKind.noConfusion, ← List.cons_append,
    assignmentsIn_append_of_forall hheading (hbegin _),
    assignmentsIn_cons_of_ne TokenKind.noConfusion, cs.assignmentsIn_append (by decide) hend,
    assignmentsIn_cons_of_ne TokenKind.noConfusion, assignmentsIn_cons_of_ne TokenKind.noConfusion]
  exact List.append_nil _

end Tree

end ThreeAddress
