import ThreeAddress.Proofs.Analysis.OpenCategories
import ThreeAddress.Proofs.Lexer.Printing

/-!
# How deep an analysis goes

The number of categories that are open at once is the depth of the recursion. It grows with the
nesting of the source, and also with its lists: the rest of a list is a category of its own, so each
declaration, command, name or operator of a list that has not come to its end leaves one or two
categories open.

An `Outline` is what matters of the tokens that have been read: the constructs that are open, and in
each of them how far its lists have come. The depth is bounded by it (`depth_le_outline`). A bound
by the number of open constructs alone does not exist, for where no construct is open at all, every
semicolon between commands is good for two categories (`depth_exceeds_nesting`).

Both are facts about derivations. They follow from what each right side of the grammar does to an
outline.
-/

namespace ThreeAddress

open Grammar ContextFreeRule

/-! ## 1. Outlines -/

/-- How far the lists inside a construct have come. -/
structure Extent where
  /-- the declarations or commands that were begun -/
  items : Nat := 0
  /-- the names or operators that were read since -/
  steps : Nat := 0
deriving Repr, DecidableEq

namespace Extent

/-- One more declaration or command. -/
def start (e : Extent) : Extent :=
  ⟨e.items + 1, 0⟩

/-- One more name or operator. -/
def advance (e : Extent) : Extent :=
  { e with steps := e.steps + 1 }

/-- What the inside of a construct adds to the depth. -/
def weight (e : Extent) : Nat :=
  3 + 2 * (e.items + e.steps)

end Extent

/-- What is open: the innermost construct, or the program, and the constructs around it from the
inside out. -/
structure Outline where
  inner : Extent := {}
  outer : List Extent := []
deriving Repr, DecidableEq

namespace Outline

/-- A construct is opened. -/
def enter (o : Outline) : Outline :=
  ⟨{}, o.inner :: o.outer⟩

/-- The innermost construct is closed. -/
def leave (o : Outline) : Outline :=
  ⟨o.outer.headD {}, o.outer.tail⟩

/-- What a terminal does to an outline. Constructs are opened by `if`, `while` and a parenthesis. -/
def read (o : Outline) : Terminal → Outline
  | .word .integerWord | .word .realWord | .word .readWord | .word .writeWord | .becomes =>
    { o with inner := o.inner.start }
  | .word .ifWord | .word .whileWord => { o with inner := o.inner.start }.enter
  | .mark .leftParen => o.enter
  | .mark .rightParen | .mark .dollar => o.leave
  | .mark .comma | .operator _ => { o with inner := o.inner.advance }
  | .comparison _ => { o with inner := { o.inner with steps := 0 } }
  | .word .beginWord | .word .thenWord | .word .doWord | .word .elseWord => { o with inner := {} }
  | _ => o

/-- The outline of some tokens. -/
def ofTokens (ts : List Token) : Outline :=
  (ts.filterMap Token.terminal?).foldl read {}

/-- The number of constructs that are open. -/
def opened (o : Outline) : Nat :=
  o.outer.length

/-- The number of items and steps of the lists that are open. -/
def listed (o : Outline) : Nat :=
  ((o.inner :: o.outer).map fun e => e.items + e.steps).sum

/-- What the constructs around the innermost one add to the depth. -/
def outerWeight (o : Outline) : Nat :=
  (o.outer.map Extent.weight).sum

/-- What an outline amounts to. -/
def weight (o : Outline) : Nat :=
  o.inner.weight + o.outerWeight

theorem weight_eq (o : Outline) : o.weight = 3 * o.opened + 2 * o.listed + 3 := by
  have hsum : ∀ es : List Extent, (es.map Extent.weight).sum =
      3 * es.length + 2 * (es.map fun e => e.items + e.steps).sum := by
    intro es
    induction es with
    | nil => rfl
    | cons e es ih =>
      simp only [List.map_cons, List.sum_cons, List.length_cons, ih, Extent.weight]
      omega
  simp only [weight, outerWeight, hsum, opened, listed, List.map_cons, List.sum_cons, Extent.weight]
  omega

end Outline

/-! ## 2. What the words of a category do -/

/-- What the words of a category do at the least for the lists of the construct that they stand
in. -/
def NonTerminal.Furthers : NonTerminal → Extent → Extent → Prop
  | .program, _, _ | .body, _, _ | .elseBranch, _, _ => True
  | .varDeclaration, e, e' | .varType, e, e' | .commands, e, e' | .command, e, e' =>
    e.items + 1 ≤ e'.items
  | .declarations, e, e' | .moreDeclarations, e, e' | .moreCommands, e, e' | .condition, e, e'
  | .relation, e, e' => e.items ≤ e'.items
  | _, e, e' => e.items ≤ e'.items ∧ e.steps ≤ e'.steps

/-- The words of a category close the constructs that they open. -/
def Outline.Follows (A : NonTerminal) (o o' : Outline) : Prop :=
  o'.outer = o.outer ∧ A.Furthers o.inner o'.inner

theorem follows_of_rule : ∀ r ∈ rules, ∀ o o', Along Outline.read Outline.Follows r.output o o' →
    Outline.Follows r.input o o' := by
  intro r hr
  -- each right side is read symbol by symbol, and what is left is about numbers
  fin_cases hr <;> intro o o' h <;>
    simp only [Along, Outline.Follows, NonTerminal.Furthers, Outline.read, Outline.enter,
      Outline.leave, Extent.start, Extent.advance] at h ⊢ <;>
    grind

/-- What is left, while a category is open, of the lists that had been read when it was opened. -/
def NonTerminal.kept : NonTerminal → Extent → Nat
  | .program, _ | .body, _ | .elseBranch, _ => 0
  | .declarations, e | .moreDeclarations, e | .varDeclaration, e | .commands, e | .moreCommands, e
  | .command, e | .condition, e => e.items
  | _, e => e.items + e.steps

/-- How many categories a category can have open, itself included, without a construct or a list
item to show for it. -/
def NonTerminal.reach : NonTerminal → Nat
  | .program => 5
  | .body | .moreDeclarations | .moreCommands | .elseBranch | .condition => 4
  | .declarations | .commands | .expression => 3
  | .varDeclaration | .variableNames | .command | .term => 2
  | _ => 1

/-- The category is open with `n` categories on its path, and these are made up for by the
outline. -/
def Outline.Deepens (A : NonTerminal) (o : Outline) (n : Nat) (o' : Outline) : Prop :=
  n + (3 + 2 * A.kept o.inner + o.outerWeight) ≤ o'.weight + A.reach

theorem deepens_of_rule : ∀ r ∈ rules, ∀ o n o',
    Midway Outline.read Outline.Follows Outline.Deepens r.output o n o' →
    Outline.Deepens r.input o (n + 1) o' := by
  intro r hr
  fin_cases hr <;> intro o n o' h <;>
    simp only [Midway, Outline.Follows, Outline.Deepens, NonTerminal.Furthers, NonTerminal.kept,
      NonTerminal.reach, Outline.read, Outline.enter, Extent.start, Extent.advance, Outline.weight,
      Outline.outerWeight, Extent.weight, List.map_cons, List.sum_cons] at h ⊢ <;>
    grind [Extent.weight]

theorem filterMap_terminal? {ts : List Token} {word : List Terminal}
    (h : ts.map Token.terminal? = word.map some) : ts.filterMap Token.terminal? = word := by
  have hid := congrArg (List.filterMap id) h
  simpa [List.filterMap_map] using hid

/-- **The depth is bounded by the outline.** -/
theorem LeavesOpen.length_le {us : List Token} {stack : List NonTerminal}
    (h : LeavesOpen us stack) :
    stack.length ≤ 3 * (Outline.ofTokens us).opened + 2 * (Outline.ofTokens us).listed + 5 := by
  cases h with
  | nothing whole => exact Nat.zero_le _
  | path mem leads =>
    obtain ⟨word, hhalfway, hus⟩ := leads
    have hdeepens := deepens_of_rule _ mem _ _ _
      (hhalfway.midway follows_of_rule deepens_of_rule ({} : Outline))
    rw [Outline.Deepens, Outline.weight_eq] at hdeepens
    rw [Outline.ofTokens, filterMap_terminal? hus]
    simp only [NonTerminal.kept, NonTerminal.reach] at hdeepens
    rw [List.length_cons]
    omega

/-! ## 3. Flat sources -/

/-- Where a source stands that has only simple commands. -/
structure Sequence where
  /-- the word `begin` has been read -/
  begun : Bool := false
  /-- the semicolons since then -/
  semicolons : Nat := 0
  /-- the last token was a semicolon -/
  fresh : Bool := false
  /-- there was no conditional and no loop -/
  flat : Bool := true
deriving Repr, DecidableEq

namespace Sequence

/-- What a terminal does. -/
def read (q : Sequence) : Terminal → Sequence
  | .word .beginWord => { q with begun := true, semicolons := 0, fresh := false }
  | .word .ifWord | .word .whileWord => { q with fresh := false, flat := false }
  | .semicolon => { q with semicolons := q.semicolons + 1, fresh := true }
  | _ => { q with fresh := false }

/-- Where a source stands behind some tokens. -/
def ofTokens (ts : List Token) : Sequence :=
  (ts.filterMap Token.terminal?).foldl read {}

/-- What the words of a category do to a source that stays flat. -/
def Runs (A : NonTerminal) (q q' : Sequence) : Prop :=
  q'.flat = true → q.flat = true ∧ match A with
    | .program | .body => q'.fresh = false
    | .declarations | .moreDeclarations | .varDeclaration | .varType | .variableNames
    | .moreVariables | .elseBranch => q'.begun = q.begun
    | .commands => q'.begun = q.begun ∧ q'.fresh = false
    | .moreCommands => q'.begun = q.begun ∧ (q'.fresh = true → q.fresh = true)
    | .otherTerms | .moreFactors | .unaryOp =>
      q'.begun = q.begun ∧ q'.semicolons = q.semicolons ∧ (q'.fresh = true → q.fresh = true)
    | _ => q'.begun = q.begun ∧ q'.semicolons = q.semicolons ∧ q'.fresh = false

/-- The categories that are open right behind a semicolon of a flat source. -/
def Heaps (A : NonTerminal) (q : Sequence) (n : Nat) (q' : Sequence) : Prop :=
  q'.flat = true → q'.fresh = true → q.flat = true ∧ match A with
    | .program | .body => q.begun = false → q'.begun = true → 2 * q'.semicolons ≤ n
    | .commands => q'.begun = q.begun ∧ 2 * q'.semicolons ≤ 2 * q.semicolons + n
    | .moreCommands => q'.begun = q.begun ∧ 2 * q'.semicolons ≤ 2 * q.semicolons + n + 1
    | .declarations | .moreDeclarations | .varDeclaration | .varType | .variableNames
    | .moreVariables | .elseBranch => q'.begun = q.begun
    | _ => q'.begun = q.begun ∧ q'.semicolons = q.semicolons

end Sequence

theorem runs_of_rule : ∀ r ∈ rules, ∀ q q', Along Sequence.read Sequence.Runs r.output q q' →
    Sequence.Runs r.input q q' := by
  intro r hr
  fin_cases hr <;> intro q q' h <;> simp only [Along, Sequence.Runs, Sequence.read] at h ⊢ <;> grind

theorem heaps_of_rule : ∀ r ∈ rules, ∀ q n q',
    Midway Sequence.read Sequence.Runs Sequence.Heaps r.output q n q' →
    Sequence.Heaps r.input q (n + 1) q' := by
  intro r hr
  fin_cases hr <;> intro q n q' h <;>
    simp only [Midway, Sequence.Runs, Sequence.Heaps, Sequence.read] at h ⊢ <;> grind

/-- **Right behind a semicolon of a flat source, every semicolon since `begin` is good for two open
categories.** -/
theorem LeavesOpen.le_length {us : List Token} {stack : List NonTerminal} (h : LeavesOpen us stack)
    (hflat : (Sequence.ofTokens us).flat = true) (hfresh : (Sequence.ofTokens us).fresh = true)
    (hbegun : (Sequence.ofTokens us).begun = true) :
    2 * (Sequence.ofTokens us).semicolons ≤ stack.length := by
  cases h with
  | nothing whole =>
    -- a program does not end with a semicolon
    obtain ⟨word, hyields, hus⟩ := derivable_iff.mp whole
    obtain ⟨_, hruns, hword⟩ := hyields.along runs_of_rule ({} : Sequence)
    rw [Sequence.ofTokens, filterMap_terminal? hus, show _ = _ from hword] at hflat hfresh
    rw [(hruns hflat).2] at hfresh
    cases hfresh
  | path mem leads =>
    obtain ⟨word, hhalfway, hus⟩ := leads
    have hheaps := heaps_of_rule _ mem _ _ _
      (hhalfway.midway runs_of_rule heaps_of_rule ({} : Sequence))
    rw [Sequence.ofTokens, filterMap_terminal? hus] at *
    exact (hheaps hflat hfresh).2 rfl hbegun

/-! ## 4. Names that are not declared -/

/-- Two ways to split the tokens, of which each has the first token in front of which the names are
in order. -/
theorem split_unique {us us' rest rest' : List Token} {t t' : Token}
    (h : us ++ t :: rest = us' ++ t' :: rest') (hus : WellNamed us) (hus' : WellNamed us')
    (ht : Redeclares us t ∨ UsesUndeclared us t) (ht' : Redeclares us' t' ∨ UsesUndeclared us' t') :
    us = us' ∧ t = t' := by
  have hlater : ∀ {vs ws t} {more : List Token},
      WellNamed ws → Redeclares vs t ∨ UsesUndeclared vs t →
      ws = vs ++ t :: more → False := by
    intro vs ws t more hws hbreaks heq
    exact hbreaks.elim (hws vs t more heq).1 (hws vs t more heq).2
  rcases List.append_eq_append_iff.mp h with ⟨as, hleft, hright⟩ | ⟨bs, hleft, hright⟩
  · cases as with
    | nil => exact ⟨(hleft.trans (List.append_nil us)).symm, (List.cons.inj hright).1⟩
    | cons v as =>
      obtain ⟨rfl, -⟩ := List.cons.inj hright
      exact (hlater hus' ht hleft).elim
  · cases bs with
    | nil => exact ⟨hleft.trans (List.append_nil us'), (List.cons.inj hright).1.symm⟩
    | cons v bs =>
      obtain ⟨rfl, -⟩ := List.cons.inj hright
      exact (hlater hus ht' hleft).elim

/-- A program that keeps the grammar is rejected at the first name that is used and was not
declared. -/
theorem rejected_of_undeclared {source : String} {us rest : List Token} {t : Token}
    (herror : (sourceStream source).error = none)
    (htokens : (sourceStream source).tokens = us ++ t :: rest)
    (hderivable : Derivable (sourceStream source).tokens)
    (hcount : operatorCount (sourceStream source).tokens < Generator.tempLimit)
    (hnamed : WellNamed us) (hunknown : UsesUndeclared us t) :
    ∃ stack s, Analysis.run source =
        .error (.rejected (.declaration (.undeclared t.text)) (some t.span) stack) s ∧
      LeavesOpen us stack := by
  have hsurveyed := surveyed_run source
  rcases run_outcome source with ⟨a, s, tree, hrun, haccepted⟩ |
    ⟨stop, s, hrun, π, p, hsound, hcomplaint⟩
  · exact absurd hunknown (haccepted.wellNamed us t rest htokens).2
  have hfirst : ∀ {t' rest'},
      π.coming = t' :: rest' → Redeclares π.seen t' ∨ UsesUndeclared π.seen t' →
      π.seen = us ∧ t' = t := by
    intro t' rest' hnext hbreaks
    have hseen : us ++ t :: rest = π.seen ++ t' :: rest' := by
      rw [← htokens, ← hnext]
      exact hsound.tokens
    exact split_unique hseen.symm hsound.wellNamed hnamed hbreaks (.inr hunknown)
  rcases hcomplaint.of_derivable hsound herror hderivable with
    ⟨t', rest', next, again⟩ | ⟨t', rest', stack, next, unknown, rfl⟩ | many
  · -- names are declared in front of `begin` and used behind it
    obtain ⟨hus, -⟩ := hfirst next (.inl again)
    exact absurd (hus ▸ again.2.1) hunknown.2.1
  · obtain ⟨rfl, rfl⟩ := hfirst next (.inr unknown)
    rw [hrun] at hsurveyed
    exact ⟨stack, s, hrun, hcomplaint.leavesOpen hsound hsurveyed⟩
  · exact absurd (Nat.le_trans many hsound.operatorCount_le) (Nat.not_le_of_lt hcount)

/-! ## 5. Long lists of commands -/

/-- The lexemes of a program up to its commands. -/
def heading : List Lexeme :=
  [Keyword.programWord.lexeme, (.identifier, "p"), Keyword.integerWord.lexeme,
    (.typeDeclaration, ":"), (.identifier, "a"), Keyword.beginWord.lexeme]

/-- A command, and the semicolon behind it. -/
def oneCommand : List Lexeme :=
  [Keyword.readWord.lexeme, Mark.leftParen.lexeme, (.identifier, "a"), Mark.rightParen.lexeme,
    (.semicolon, ";")]

/-- The commands `read(a)` with a semicolon behind each. -/
def manyCommands (n : Nat) : List Lexeme :=
  (List.replicate n oneCommand).flatten

/-- What comes behind the name in the last command. -/
def ending : List Lexeme :=
  [(.attributor, ":="), (.integer, "1"), Keyword.endWord.lexeme, Mark.point.lexeme]

/-- Commands that read `a`, and a last one that assigns to `b`. -/
def flatCommands : Nat → Tree .commands
  | 0 => .commands
      (.assign "b" (.expression (.term .noSign (.literal .integer "1") .endFactors) .endTerms))
      .endCommands
  | n + 1 => .commands (.read "a") (.separated (flatCommands n))

/-- A program without any nesting, which declares `a` only. -/
def flatProgram (n : Nat) : Tree .program :=
  .program "p" (.body
    (.declarations (.varDeclaration (.varType .integer) (.variableNames "a" .endVariables))
      .endDeclarations)
    (flatCommands n))

theorem lexemes_flatProgram (n : Nat) :
    (flatProgram n).lexemes = heading ++ manyCommands n ++ (.identifier, "b") :: ending := by
  have hcommands : ∀ n, (flatCommands n).lexemes ++ [Keyword.endWord.lexeme, Mark.point.lexeme] =
      manyCommands n ++ (.identifier, "b") :: ending := by
    intro n
    induction n with
    | zero => rfl
    | succ n ih =>
      rw [manyCommands, List.replicate_succ, List.flatten_cons, List.append_assoc, ← manyCommands,
        ← ih]
      rfl
  have hlexemes : (flatProgram n).lexemes = heading ++ ((flatCommands n).lexemes ++
      [Keyword.endWord.lexeme, Mark.point.lexeme]) := by
    simp [flatProgram, Tree.lexemes, heading, VarType.name, Keyword.lexeme, Keyword.text]
  rw [hlexemes, hcommands, List.append_assoc]

theorem mem_of_mem_manyCommands {n : Nat} {l : Lexeme} (h : l ∈ manyCommands n) :
    l ∈ oneCommand :=
  mem_of_mem_repeated h

/-- However long such a program is, it has only a few lexemes. -/
theorem mem_of_mem_flatProgram {n : Nat} {l : Lexeme} (h : l ∈ (flatProgram n).lexemes) :
    l ∈ heading ++ oneCommand ++ (.identifier, "b") :: ending := by
  rw [lexemes_flatProgram] at h
  simp only [List.mem_append] at h ⊢
  exact h.imp_left (Or.imp_right mem_of_mem_manyCommands)

theorem spells_flatProgram (n : Nat) : ∀ l ∈ (flatProgram n).lexemes, l.1.Spells l.2 := by
  -- these lexemes are those of a short source, which the lexer spells out
  have hspells : ∀ l ∈ heading ++ oneCommand ++ (.identifier, "b") :: ending, l.1.Spells l.2 :=
    @spells_of_tokens "program p integer : a begin read ( a ) ; b := 1 end ." _
      (by decide +kernel)
  exact fun l hl => hspells l (mem_of_mem_flatProgram hl)

theorem operatorCount_of_flat {ts : List Token} {n : Nat}
    (h : ts.map Token.lexeme = (flatProgram n).lexemes) : operatorCount ts = 0 := by
  rw [operatorCount, List.countP_eq_zero]
  intro t ht
  have hkinds : ∀ l ∈ heading ++ oneCommand ++ (.identifier, "b") :: ending,
      ¬ (l.1 = .operator ∨ l.1 = .relational) := by decide
  have hmem : t.lexeme ∈ (flatProgram n).lexemes := by
    rw [← h]
    exact List.mem_map_of_mem ht
  simpa [Token.operates, Token.lexeme] using hkinds _ (mem_of_mem_flatProgram hmem)

/-- Behind the heading and some commands, the names are in order, and `b` has not been declared. -/
theorem names_of_flat {us : List Token} {t : Token} {n : Nat}
    (hus : us.map Token.lexeme = heading ++ manyCommands n) (ht : t.lexeme = (.identifier, "b")) :
    WellNamed us ∧ UsesUndeclared us t := by
  obtain ⟨hdeclared, hcommands⟩ := lexemes_parts us
  rw [hus] at hdeclared hcommands
  have hnames : identifiers (declarationPart us) = ["a"] := by
    rw [identifiers_eq_names, hdeclared]
    rfl
  have hused : ∀ x ∈ identifiers (commandPart us), x = "a" := by
    intro x hx
    rw [identifiers_eq_names, hcommands, mem_names_iff_mem] at hx
    have hmem : (TokenKind.identifier, x) ∈ Keyword.beginWord.lexeme :: manyCommands n := hx
    rcases List.mem_cons.mp hmem with heq | hmem
    · cases heq
    · have hone := mem_of_mem_manyCommands hmem
      simpa [oneCommand, Keyword.lexeme, Mark.lexeme] using hone
  refine ⟨wellNamed_iff.mpr ⟨?_, fun x hx => ?_⟩, congrArg Prod.fst ht, ?_, ?_⟩
  · rw [hnames]
    exact List.nodup_singleton _
  · rw [hnames, hused x hx]
    exact List.mem_singleton_self _
  · intro hnil
    rw [hnil] at hcommands
    cases hcommands
  · rw [hnames, show t.text = "b" from congrArg Prod.snd ht]
    decide

/-- The terminals of the heading. -/
def headingWord : List Terminal :=
  [.word .programWord, .identifier, .word .integerWord, .colon, .identifier, .word .beginWord]

/-- The terminals of a command and the semicolon behind it. -/
def commandWord : List Terminal :=
  [.word .readWord, .mark .leftParen, .identifier, .mark .rightParen, .semicolon]

theorem terminals_of_flat {us : List Token} {n : Nat}
    (hus : us.map Token.lexeme = heading ++ manyCommands n) :
    us.filterMap Token.terminal? = headingWord ++ (List.replicate n commandWord).flatten := by
  -- the terminal of a token is that of its lexeme, at whatever place
  have hlexeme : Token.terminal? =
      (fun l : Lexeme => Token.terminal? ⟨⟨0, 0⟩, l.1, l.2⟩) ∘ Token.lexeme := rfl
  rw [hlexeme, ← List.filterMap_map, hus, List.filterMap_append, manyCommands,
    List.filterMap_flatten, List.map_replicate]
  congr 1

/-- Commands without nesting leave no construct open, and there is a semicolon behind each. -/
theorem state_of_flat {us : List Token} {n : Nat}
    (hus : us.map Token.lexeme = heading ++ manyCommands (n + 1)) :
    Outline.ofTokens us = ⟨⟨n + 1, 0⟩, []⟩ ∧ Sequence.ofTokens us = ⟨true, n + 1, true, true⟩ := by
  have houtline : ∀ n items,
      (List.replicate n commandWord).flatten.foldl Outline.read ⟨⟨items, 0⟩, []⟩ =
      ⟨⟨items + n, 0⟩, []⟩ := by
    intro n
    induction n with
    | zero => exact fun items => rfl
    | succ n ih =>
      intro items
      rw [List.replicate_succ, List.flatten_cons, List.foldl_append, Nat.add_comm n,
        ← Nat.add_assoc]
      exact ih (items + 1)
  have hsequence : ∀ n semicolons fresh,
      (List.replicate (n + 1) commandWord).flatten.foldl Sequence.read
        ⟨true, semicolons, fresh, true⟩ =
        ⟨true, semicolons + (n + 1), true, true⟩ := by
    intro n
    induction n with
    | zero => exact fun semicolons fresh => rfl
    | succ n ih =>
      intro semicolons fresh
      rw [List.replicate_succ, List.flatten_cons, List.foldl_append, Nat.add_comm (n + 1),
        ← Nat.add_assoc]
      exact ih (semicolons + 1) true
  rw [Outline.ofTokens, Sequence.ofTokens, terminals_of_flat hus, List.foldl_append,
    List.foldl_append]
  refine ⟨(houtline (n + 1) 0).trans ?_, (hsequence n 0 false).trans ?_⟩ <;> rw [Nat.zero_add]

theorem size_flatProgram (n : Nat) :
    (Printed.print (spacedOut (flatProgram n).lexemes) "").utf8ByteSize = 13 * n + 41 := by
  rw [size_print, lexemes_flatProgram, List.map_append, List.map_append, List.sum_append,
    List.sum_append, manyCommands, size_repeated,
    show (oneCommand.map fun l => 1 + l.2.utf8ByteSize).sum = 13 by decide,
    show (heading.map fun l => 1 + l.2.utf8ByteSize).sum = 28 by decide,
    show (((TokenKind.identifier, "b") :: ending).map fun l => 1 + l.2.utf8ByteSize).sum = 13
      by decide]
  omega

namespace Analysis

/-- **The depth of a rejection is bounded by the constructs that are open and by the items of the
lists that are open.** -/
theorem depth_le_outline {source : String} {d : Diagnostic}
    (h : (ofSource source).1 = .error (.rejected d)) :
    ∃ k, (sourceStream source).Reported source k d ∧
      d.stack.length ≤ 3 * (Outline.ofTokens ((sourceStream source).tokens.take k)).opened +
        2 * (Outline.ofTokens ((sourceStream source).tokens.take k)).listed + 5 := by
  obtain ⟨k, hreported, hleaves⟩ := exists_leavesOpen h
  exact ⟨k, hreported, hleaves.length_le⟩

/-- An expression breaks off inside two parentheses and a conditional, behind two commands. -/
def brokenOff : String :=
  "program p integer: a begin read(a); write(a); if a + 2 > (1 - (a * 2 then a := 1 $ end."

theorem depth_le_outline_broken_off :
    ∃ d, (ofSource brokenOff).1 = .error (.rejected d) ∧ d.stack.length = 16 ∧
    ∃ k, (sourceStream brokenOff).Reported brokenOff k d ∧
      d.stack.length ≤ 3 * (Outline.ofTokens ((sourceStream brokenOff).tokens.take k)).opened +
        2 * (Outline.ofTokens ((sourceStream brokenOff).tokens.take k)).listed + 5 := by
  obtain ⟨d, hd, hlength⟩ : ∃ d, (ofSource brokenOff).1 = .error (.rejected d) ∧
      d.stack.length = 16 := exists_of_map_rejection? (by decide +kernel)
  exact ⟨d, hd, hlength, depth_le_outline hd⟩

/-- Where no construct is open there is a rejection of any depth, in a source that is not much
longer. -/
theorem exists_deep_rejection (b : Nat) :
    ∃ source us t rest cause stack s, source.utf8ByteSize = 13 * b + 54 ∧
      (sourceStream source).tokens = us ++ t :: rest ∧
      run source = .error (.rejected cause (some t.span) stack) s ∧
      (Outline.ofTokens us).opened = 0 ∧ b < stack.length := by
  let source := Printed.print (spacedOut (flatProgram (b + 1)).lexemes) ""
  have hstream := sourceStream_print (spells_flatProgram (b + 1))
  have hlexemes : (sourceStream source).tokens.map Token.lexeme =
      (flatProgram (b + 1)).lexemes := by
    rw [hstream, lexemes_layout]
  have hderivable : Derivable (sourceStream source).tokens := Tree.derivable hlexemes
  have hcount : operatorCount (sourceStream source).tokens < Generator.tempLimit := by
    rw [operatorCount_of_flat hlexemes]
    decide
  rw [lexemes_flatProgram] at hlexemes
  obtain ⟨us, ts, htokens, hus, hts⟩ := List.map_eq_append_iff.mp hlexemes
  obtain ⟨t, rest, rfl, ht, hrest⟩ := List.map_eq_cons_iff.mp hts
  obtain ⟨hnamed, hunknown⟩ := names_of_flat hus ht
  obtain ⟨stack, s, hrun, hleaves⟩ :=
    rejected_of_undeclared (by rw [hstream]) htokens hderivable hcount hnamed hunknown
  obtain ⟨houtline, hsequence⟩ := state_of_flat hus
  have hdeep : 2 * (b + 1) ≤ stack.length := by
    have hle := hleaves.le_length (by rw [hsequence]) (by rw [hsequence]) (by rw [hsequence])
    rwa [hsequence] at hle
  refine ⟨source, us, t, rest, _, stack, s, ?_, htokens, hrun, ?_, by omega⟩
  · rw [size_flatProgram]
    omega
  · rw [houtline]
    rfl

/-- Three commands without nesting, and a name that was not declared. -/
def threeReads : String :=
  "program p integer: a begin read(a); read(a); read(a); b := 1 end."

/-- **The depth of a rejection is not bounded by the number of constructs that are open.** A long
list of commands is enough, and unless its source is longer than any text can be, the rejection is
reported. Behind three commands there are ten open categories already. -/
theorem depth_exceeds_nesting :
    (¬ ∃ a b : Nat, ∀ source us t rest cause stack s,
      (sourceStream source).tokens = us ++ t :: rest →
      run source = .error (.rejected cause (some t.span) stack) s →
      stack.length ≤ a * (Outline.ofTokens us).opened + b) ∧
    (∀ b, 13 * b + 54 < textLimit → ∃ source us t rest cause location stack,
      (sourceStream source).tokens = us ++ t :: rest ∧
      Location.resolve source t.span = .ok location ∧
      (ofSource source).1 = .error (.rejected ⟨cause, some location, stack⟩) ∧
      (Outline.ofTokens us).opened = 0 ∧ b < stack.length) ∧
    ∃ d, (ofSource threeReads).1 = .error (.rejected d) ∧
      d.stack = [.program, .body, .commands, .moreCommands, .commands, .moreCommands, .commands,
        .moreCommands, .commands, .command] := by
  refine ⟨?_, fun b hsize => ?_, exists_of_map_rejection? (by decide +kernel)⟩
  · rintro ⟨a, b, hbound⟩
    obtain ⟨source, us, t, rest, cause, stack, s, -, htokens, hrun, hopened, hdeep⟩ :=
      exists_deep_rejection b
    have hle := hbound source us t rest cause stack s htokens hrun
    rw [hopened] at hle
    omega
  · obtain ⟨source, us, t, rest, cause, stack, s, hlength, htokens, hrun, hopened, hdeep⟩ :=
      exists_deep_rejection b
    obtain ⟨location, hl⟩ :=
      exists_resolve_token (hlength ▸ hsize)
        (show t ∈ (sourceStream source).tokens by rw [htokens]; simp)
    exact ⟨source, us, t, rest, cause, location, stack, htokens, hl,
      by rw [ofSource_of_error hrun, locate_of_resolve hl], hopened, hdeep⟩

end Analysis

end ThreeAddress
