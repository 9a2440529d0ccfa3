import ThreeAddress.Proofs.Syntax.Tree

/-!
# Commands without the semicolons between them

The rest of some commands begins with a semicolon or without one, and it means the same. So if
semicolons are taken out of the lexemes of some commands, there is still a tree of what is left, and
it has the same meaning (`Tree.thins`): one form of the rest takes the place of the other wherever a
semicolon is missing.

The semicolons between declarations cannot be spared.
-/

namespace ThreeAddress

/-! ## 1. Fewer semicolons -/

/-- The second list is the first without some of its semicolons. -/
inductive Thinned : List Lexeme → List Lexeme → Prop
  | nil : Thinned [] []
  | keep {ls ls' : List Lexeme} (l : Lexeme) (h : Thinned ls ls') : Thinned (l :: ls) (l :: ls')
  | drop {ls ls' : List Lexeme} (h : Thinned ls ls') : Thinned ((.semicolon, ";") :: ls) ls'

namespace Thinned

variable {us vs ls ls' : List Lexeme} {l : Lexeme}

theorem of_append (h : Thinned (us ++ vs) ls) :
    ∃ us' vs', ls = us' ++ vs' ∧ Thinned us us' ∧ Thinned vs vs' := by
  induction us generalizing ls with
  | nil => exact ⟨[], ls, rfl, .nil, h⟩
  | cons l us ih =>
    cases h with
    | keep l h =>
      obtain ⟨us', vs', rfl, hus, hvs⟩ := ih h
      exact ⟨l :: us', vs', rfl, .keep l hus, hvs⟩
    | drop h =>
      obtain ⟨us', vs', rfl, hus, hvs⟩ := ih h
      exact ⟨us', vs', rfl, .drop hus, hvs⟩

/-- What is no semicolon stays. -/
theorem of_cons (h : Thinned (l :: ls) ls') (hl : l.1 ≠ .semicolon) :
    ∃ rest, ls' = l :: rest ∧ Thinned ls rest := by
  cases h with
  | keep l h => exact ⟨_, rfl, h⟩
  | drop h => exact absurd rfl hl

theorem eq_of_forall (h : Thinned ls ls') (hls : ∀ l ∈ ls, l.1 ≠ .semicolon) : ls' = ls := by
  induction h with
  | nil => rfl
  | keep l h ih => rw [ih (List.forall_mem_cons.mp hls).2]
  | drop h => exact absurd rfl (hls _ List.mem_cons_self)

/-- Taking semicolons out of a list of tokens thins their lexemes. -/
theorem of_filter {ts : List Token} {p : Token → Bool}
    (h : ∀ t ∈ ts, p t = false → t.lexeme = (.semicolon, ";")) :
    Thinned (ts.map Token.lexeme) ((ts.filter p).map Token.lexeme) := by
  induction ts with
  | nil => exact .nil
  | cons t ts ih =>
    obtain ⟨ht, hts⟩ := List.forall_mem_cons.mp h
    cases hp : p t with
    | true =>
      rw [List.filter_cons_of_pos hp]
      exact .keep _ (ih hts)
    | false =>
      rw [List.filter_cons_of_neg (by simp [hp]), List.map_cons, ht hp]
      exact .drop (ih hts)

end Thinned

/-! ## 2. Trees -/

/-- Whether there may be semicolons in the trees of a category. -/
def NonTerminal.mayHoldSemicolons : NonTerminal → Bool
  | program | body | declarations | moreDeclarations => true
  | commands | moreCommands | command | elseBranch => true
  | _ => false

namespace Tree

variable {A : NonTerminal}

theorem all_ne_semicolon (tree : Tree A) (hA : A.mayHoldSemicolons = false) :
    tree.lexemes.all (·.1 ≠ .semicolon) = true := by
  induction tree with
  | program | body | noDeclarations | declarations | endDeclarations | moreDeclarations => cases hA
  | commands | endCommands | separated | juxtaposed | read | write | assign | conditional
  | loop => cases hA
  | noElse | elseBranch => cases hA
  | literal type text => cases type <;> simp [lexemes, VarType.literalKind]
  | _ =>
    simp_all [lexemes, Mark.lexeme, Arithmetic.lexeme, NonTerminal.mayHoldSemicolons,
      -List.all_eq_true]

/-- There is a tree with the same meaning for the lexemes without some of the semicolons. -/
def Thins (tree : Tree A) : Prop :=
  ∀ ls, Thinned tree.lexemes ls → ∃ tree' : Tree A,
    tree'.lexemes = ls ∧ tree'.meaning = tree.meaning

/-- Lexemes without a semicolon stay as they are. -/
theorem thins_of_forall {tree : Tree A} (h : ∀ l ∈ tree.lexemes, l.1 ≠ .semicolon) :
    tree.Thins := by
  intro ls hls
  exact ⟨tree, (hls.eq_of_forall h).symm, rfl⟩

theorem thins_of_category (tree : Tree A) (hA : A.mayHoldSemicolons = false) : tree.Thins := by
  refine thins_of_forall ?_
  simpa only [List.all_eq_true, decide_eq_true_iff] using tree.all_ne_semicolon hA

theorem thins_commands {first : Tree .command} {more : Tree .moreCommands} (hfirst : first.Thins)
    (hmore : more.Thins) : (commands first more).Thins := by
  intro ls h
  rw [lexemes] at h
  obtain ⟨us, vs, rfl, hus, hvs⟩ := h.of_append
  obtain ⟨first', rfl, hfirst⟩ := hfirst us hus
  obtain ⟨more', rfl, hmore⟩ := hmore vs hvs
  exact ⟨.commands first' more', by rw [lexemes], by rw [meaning, meaning, hfirst, hmore]⟩

/-- Without its semicolon, the rest of some commands is one of the other form. -/
theorem thins_separated {rest : Tree .commands} (hrest : rest.Thins) : (separated rest).Thins := by
  intro ls h
  rw [lexemes] at h
  cases h with
  | keep l h =>
    obtain ⟨rest', rfl, hmeaning⟩ := hrest _ h
    exact ⟨.separated rest', by rw [lexemes], by rw [meaning, meaning, hmeaning]⟩
  | drop h =>
    obtain ⟨rest', rfl, hmeaning⟩ := hrest _ h
    exact ⟨.juxtaposed rest', by rw [lexemes], by rw [meaning, meaning, hmeaning]⟩

theorem thins_juxtaposed {rest : Tree .commands} (hrest : rest.Thins) :
    (juxtaposed rest).Thins := by
  intro ls h
  rw [lexemes] at h
  obtain ⟨rest', rfl, hmeaning⟩ := hrest _ h
  exact ⟨.juxtaposed rest', by rw [lexemes], by rw [meaning, meaning, hmeaning]⟩

theorem thins_assign (name : String) (value : Tree .expression) : (assign name value).Thins := by
  intro ls h
  rw [lexemes] at h
  obtain ⟨ls₁, rfl, h₁⟩ := h.of_cons (by simp)
  obtain ⟨ls₂, rfl, h₂⟩ := h₁.of_cons (by simp)
  obtain ⟨value', rfl, hvalue⟩ := value.thins_of_category rfl ls₂ h₂
  exact ⟨.assign name value', by rw [lexemes], by rw [meaning, meaning, hvalue]⟩

theorem thins_conditional (test : Tree .condition) {onTrue : Tree .commands}
    {onFalse : Tree .elseBranch}
    (htrue : onTrue.Thins) (hfalse : onFalse.Thins) : (conditional test onTrue onFalse).Thins := by
  intro ls h
  rw [lexemes] at h
  obtain ⟨ls₁, rfl, h₁⟩ := h.of_cons (by decide)
  obtain ⟨us, ls₂, rfl, hus, h₂⟩ := h₁.of_append
  obtain ⟨ls₃, rfl, h₃⟩ := h₂.of_cons (by decide)
  obtain ⟨vs, ls₄, rfl, hvs, h₄⟩ := h₃.of_append
  obtain ⟨ws, ls₅, rfl, hws, h₅⟩ := h₄.of_append
  obtain rfl := h₅.eq_of_forall (by decide)
  obtain ⟨test', rfl, htest⟩ := test.thins_of_category rfl us hus
  obtain ⟨onTrue', rfl, htrue⟩ := htrue vs hvs
  obtain ⟨onFalse', rfl, hfalse⟩ := hfalse ws hws
  exact ⟨.conditional test' onTrue' onFalse', by rw [lexemes],
    by rw [meaning, meaning, htest, htrue, hfalse]⟩

theorem thins_loop (test : Tree .condition) {body : Tree .commands} (hbody : body.Thins) :
    (loop test body).Thins := by
  intro ls h
  rw [lexemes] at h
  obtain ⟨ls₁, rfl, h₁⟩ := h.of_cons (by decide)
  obtain ⟨us, ls₂, rfl, hus, h₂⟩ := h₁.of_append
  obtain ⟨ls₃, rfl, h₃⟩ := h₂.of_cons (by decide)
  obtain ⟨vs, ls₄, rfl, hvs, h₄⟩ := h₃.of_append
  obtain rfl := h₄.eq_of_forall (by decide)
  obtain ⟨test', rfl, htest⟩ := test.thins_of_category rfl us hus
  obtain ⟨body', rfl, hbody⟩ := hbody vs hvs
  exact ⟨.loop test' body', by rw [lexemes], by rw [meaning, meaning, htest, hbody]⟩

theorem thins_elseBranch {cs : Tree .commands} (hcs : cs.Thins) : (elseBranch cs).Thins := by
  intro ls h
  rw [lexemes] at h
  obtain ⟨ls₁, rfl, h₁⟩ := h.of_cons (by decide)
  obtain ⟨cs', rfl, hmeaning⟩ := hcs ls₁ h₁
  exact ⟨.elseBranch cs', by rw [lexemes], by rw [meaning, meaning, hmeaning]⟩

/-- The categories of the command part. -/
def commandCategories : List NonTerminal :=
  [.commands, .moreCommands, .command, .elseBranch]

/-- **Commands mean the same without their semicolons.** -/
theorem thins (tree : Tree A) (hA : A ∈ commandCategories) : tree.Thins := by
  -- conditions and expressions hold no semicolons, so the induction stays in the command part
  induction tree with
  | commands first more ihfirst ihmore =>
    exact thins_commands (ihfirst (by decide)) (ihmore (by decide))
  | endCommands | noElse => exact thins_of_forall (by simp [lexemes])
  | separated rest ih => exact thins_separated (ih (by decide))
  | juxtaposed rest ih => exact thins_juxtaposed (ih (by decide))
  | read name | write name => exact thins_of_forall (by simp [lexemes, Keyword.lexeme, Mark.lexeme])
  | assign name value => exact thins_assign name value
  | conditional test onTrue onFalse _ ihtrue ihfalse =>
    exact thins_conditional test (ihtrue (by decide)) (ihfalse (by decide))
  | loop test body _ ih => exact thins_loop test (ih (by decide))
  | elseBranch cs ih => exact thins_elseBranch (ih (by decide))
  | _ => exact absurd hA (by decide)

end Tree

end ThreeAddress
