import ThreeAddress.Proofs.Analysis.OpenCategories
import ThreeAddress.Proofs.Analysis.Scope
import ThreeAddress.Proofs.Lexer.Blanking
import ThreeAddress.Proofs.Syntax.Separation
import ThreeAddress.Proofs.Syntax.Unambiguous

/-!
# Semicolons between commands

A semicolon behind `begin` only separates two commands, and it can be left out. Three things are
behind this. A space ends a lexeme as well as a semicolon does (`sourceStream_blanked`), so the
other tokens stay. What is left has a parse tree with the same meaning (`Tree.thins`). And a list of
lexemes has no second parse tree (`Tree.lexemes_injective`): an expression in front of a command
does not run on into it.
-/

namespace ThreeAddress

open Grammar

/-! ## 1. What is accepted -/

variable {source : String} {a : Analysis}

/-- A source that keeps the grammar and the rules about names is accepted, if there are temporaries
enough. -/
theorem exists_run_eq_ok (herror : (sourceStream source).error = none)
    (hderivable : Derivable (sourceStream source).tokens)
    (hnamed : WellNamed (sourceStream source).tokens)
    (hcount : operatorCount (sourceStream source).tokens < Generator.tempLimit) :
    ∃ a s tree, Analysis.run source = .ok a s ∧ Accepted source a tree := by
  rcases run_outcome source with haccepted | ⟨stop, s, hrun, π, p, hsound, hcomplaint⟩
  · exact haccepted
  have htokens : (sourceStream source).tokens = π.seen ++ π.coming := hsound.tokens
  rcases hcomplaint.of_derivable hsound herror hderivable with
    ⟨t, rest, next, again⟩ | ⟨t, rest, stack, next, unknown, -⟩ | many
  · exact absurd again (hnamed _ _ _ (next ▸ htokens)).1
  · exact absurd unknown (hnamed _ _ _ (next ▸ htokens)).2
  · exact absurd (Nat.le_trans many hsound.operatorCount_le) (Nat.not_le_of_lt hcount)

/-- The meaning of the program is all that an analysis gives. -/
theorem Accepted.eq_of_meaning {source' : String} {a' : Analysis} {tree tree' : Tree .program}
    (h : Accepted source a tree) (h' : Accepted source' a' tree')
    (hmeaning : tree'.meaning = tree.meaning) : a' = a := by
  obtain ⟨⟨quads⟩, ⟨symbols⟩⟩ := a
  obtain ⟨⟨quads'⟩, ⟨symbols'⟩⟩ := a'
  have hquads : quads' = quads := Array.ext' (by rw [h'.code, hmeaning, ← h.code])
  have hsymbols : symbols' = symbols := Array.ext' (by rw [h'.symbols, hmeaning, ← h.symbols])
  rw [hquads, hsymbols]

/-! ## 2. Tokens that are left out -/

variable {ts ds cs : List Token} {p : Token → Bool}

theorem CutAtBegin.commandPart (h : CutAtBegin ts ds cs) :
    ∃ b, commandPart ts = b :: cs ∧ b.lexeme = Keyword.beginWord.lexeme := by
  obtain ⟨⟨t, name, b, rfl, -, -, hb⟩, hfirst⟩ := h
  have hall : ∀ u ∈ ds, (!u.isKeyword .beginWord) = true := by
    intro u hu
    rw [hfirst u hu]
    rfl
  refine ⟨b, ?_, isKeyword_iff_lexeme.mp hb⟩
  show (ds ++ b :: cs).dropWhile _ = b :: cs
  rw [List.dropWhile_append_of_pos hall, List.dropWhile_cons_of_neg (by simp [hb])]

theorem CutAtBegin.mem_of_semicolon (h : CutAtBegin ts ds cs) {t : Token} (ht : t.kind = .semicolon)
    (hmem : t ∈ ThreeAddress.commandPart ts) : t ∈ cs := by
  obtain ⟨b, hcommands, hb⟩ := h.commandPart
  rw [hcommands] at hmem
  rcases List.mem_cons.mp hmem with rfl | hmem
  · rw [kind_of_lexeme hb] at ht
    cases ht
  · exact hmem

/-- The rules about names, for the two parts. -/
theorem CutAtBegin.wellNamed_iff (h : CutAtBegin ts ds cs) :
    WellNamed ts ↔ (identifiers ds).Nodup ∧ ∀ x ∈ identifiers cs, x ∈ identifiers ds := by
  obtain ⟨b, hcommands, hb⟩ := h.commandPart
  have hkind : b.kind ≠ .identifier := by
    rw [kind_of_lexeme hb]
    exact TokenKind.noConfusion
  have hidentifiers : identifiers (b :: cs) = identifiers cs := by
    rw [← List.singleton_append, identifiers_append, identifiers_singleton_of_ne hkind,
      List.nil_append]
  rw [ThreeAddress.wellNamed_iff, h.declarationPart, hcommands, hidentifiers]

/-- Semicolons behind `begin` are left out, and all that is in front of it stays. -/
theorem filter_cut (front : List Token) {b : Token} (hb : b.isKeyword .beginWord = true)
    (hnodup : (front ++ b :: cs).Nodup)
    (hp : ∀ t ∈ front ++ b :: cs, p t = false → t.kind = .semicolon ∧ t ∈ cs) :
    (front ++ b :: cs).filter p = front ++ b :: cs.filter p := by
  have hfront : ∀ t ∈ front, p t = true := by
    intro t ht
    by_contra hpt
    rw [Bool.not_eq_true] at hpt
    have hcs := (hp t (List.mem_append_left _ ht) hpt).2
    exact (List.nodup_append.mp hnodup).2.2 t ht t (List.mem_cons_of_mem b hcs) rfl
  have hbegin : p b = true := by
    by_contra hpb
    rw [Bool.not_eq_true] at hpb
    have hkind := (hp b (List.mem_append_right _ List.mem_cons_self) hpb).1
    rw [kind_of_lexeme (isKeyword_iff_lexeme.mp hb)] at hkind
    cases hkind
  rw [List.filter_append, List.filter_eq_self.mpr hfront, List.filter_cons_of_pos hbegin]

/-- **Without some semicolons behind `begin`, the tokens of a program are those of a program with
the same meaning**, and they still keep the rules about names. -/
theorem exists_tree_of_filter {tree : Tree .program} (h : ts.map Token.lexeme = tree.lexemes)
    (hnamed : WellNamed ts) (hnodup : ts.Nodup)
    (hp : ∀ t ∈ ts, p t = false → t.lexeme = (.semicolon, ";") ∧ t ∈ commandPart ts) :
    ∃ tree' : Tree .program, (ts.filter p).map Token.lexeme = tree'.lexemes ∧
      tree'.meaning = tree.meaning ∧ WellNamed (ts.filter p) := by
  cases tree with | program name b => cases b with | body dtree ctree =>
  obtain ⟨ds, cs, hcut, hds⟩ := Tree.cutAtBegin h
  have hnames := hcut.wellNamed_iff.mp hnamed
  have hcs : ∀ t ∈ ts, p t = false → t.kind = .semicolon ∧ t ∈ cs := by
    intro t ht hpt
    obtain ⟨hlexeme, hmem⟩ := hp t ht hpt
    exact ⟨kind_of_lexeme hlexeme, hcut.mem_of_semicolon (kind_of_lexeme hlexeme) hmem⟩
  obtain ⟨⟨t, n, b, rfl, ht, hn, hb⟩, hfirst⟩ := hcut
  have hfilter : (t :: n :: (ds ++ b :: cs)).filter p = t :: n :: (ds ++ b :: cs.filter p) :=
    filter_cut (t :: n :: ds) hb hnodup hcs
  simp only [Tree.lexemes, List.map_cons, List.map_append, hds, List.cons_append, List.append_assoc,
    List.cons.injEq, List.append_cancel_left_eq] at h
  obtain ⟨ht', hn', hb', hcommands⟩ := h
  have hthinned : Thinned (cs.map Token.lexeme) ((cs.filter p).map Token.lexeme) :=
    .of_filter fun u hu hpu => (hp u (by simp [hu]) hpu).1
  rw [hcommands] at hthinned
  obtain ⟨us, vs, hleft, hus, hvs⟩ := hthinned.of_append
  -- behind the commands there are `end` and the point, which stay
  obtain rfl := hvs.eq_of_forall (by decide)
  obtain ⟨ctree', rfl, hmeaning⟩ := ctree.thins (by decide) us hus
  rw [hfilter]
  refine ⟨.program name (.body dtree ctree'), ?_, ?_, ?_⟩
  · simp [Tree.lexemes, ht', hn', hds, hb', hleft]
  · simp only [Tree.meaning, hmeaning]
  · refine (CutAtBegin.wellNamed_iff ⟨⟨t, n, b, rfl, ht, hn, hb⟩, hfirst⟩).mpr
      ⟨hnames.1, fun x hx => ?_⟩
    exact hnames.2 x (((List.filter_sublist.filter _).map _).subset hx)

/-! ## 3. Semicolons that are blanked -/

namespace Analysis

/-- **Semicolons between commands only separate them.** Whichever of the semicolons behind `begin`
are replaced by spaces, the source is still accepted, with the same program and the same symbol
table. -/
theorem semicolons_only_separate (h : (ofSource source).1 = .ok a)
    (hts : (Lexer.ofSource source).tokens.answer = .ok ts) {chosen : List Token}
    (hchosen : ∀ t ∈ chosen, t.kind = .semicolon ∧ t ∈ commandPart ts) :
    (ofSource (Text.blanked (chosen.map (·.span.offset)) source)).1 = .ok a := by
  obtain ⟨tree, haccepted⟩ := exists_accepted h
  obtain rfl : (sourceStream source).tokens = ts :=
    congrArg Stream.tokens (tokens_ofSource_eq_ok_iff.mp hts)
  have hmem : ∀ t ∈ chosen, t.kind = .semicolon ∧ t ∈ (sourceStream source).tokens := fun t ht =>
    ⟨(hchosen t ht).1, List.mem_of_mem_drop ((List.dropWhile_sublist _).mem (hchosen t ht).2)⟩
  have hblanked := sourceStream_blanked haccepted.error hmem
  -- what is left out are semicolons of the command part
  have hleft : ∀ t ∈ (sourceStream source).tokens, decide (t ∉ chosen) = false →
      t.lexeme = (.semicolon, ";") ∧ t ∈ commandPart (sourceStream source).tokens := by
    intro t ht hout
    rw [decide_eq_false_iff_not, not_not] at hout
    have htext := ((sourceStream_liesIn source).1.tokens t ht).text_eq (hchosen t hout).1
    exact ⟨Prod.ext (hchosen t hout).1 htext, (hchosen t hout).2⟩
  obtain ⟨tree', hlexemes, hmeaning, hnamed⟩ :=
    exists_tree_of_filter haccepted.lexemes haccepted.wellNamed
    (List.Nodup.of_map _ (nodup_offsets source)) hleft
  have htokens : (sourceStream (Text.blanked (chosen.map (·.span.offset)) source)).tokens =
      (sourceStream source).tokens.filter (· ∉ chosen) := congrArg Stream.tokens hblanked
  have hcount : operatorCount ((sourceStream source).tokens.filter (· ∉ chosen)) <
      Generator.tempLimit :=
    Nat.lt_of_le_of_lt List.filter_sublist.countP_le (operatorCount_lt_of_ok h)
  rw [← htokens] at hlexemes hnamed hcount
  obtain ⟨a', s, tree'', hrun, haccepted'⟩ :=
    exists_run_eq_ok (congrArg Stream.error hblanked) (Tree.derivable hlexemes) hnamed hcount
  -- the tree that the analysis finds can be no other
  obtain rfl : tree'' = tree' := Tree.lexemes_injective (haccepted'.lexemes.symm.trans hlexemes)
  rw [ofSource_of_ok hrun, haccepted.eq_of_meaning haccepted' hmeaning]

/-- Commands of all kinds, with semicolons between them. -/
def punctuated : String :=
  "program p integer: a, b; real: c begin read(a); c := a * 2; if a < b then b := a; " ++
  "a := -b else write(a); write(b) $; write(c) end."

/-- Three of the semicolons: two stand behind expressions, and one between the commands of a
branch. -/
def someSemicolons : List Token :=
  [⟨⟨58, 1⟩, .semicolon, ";"⟩, ⟨⟨80, 1⟩, .semicolon, ";"⟩, ⟨⟨103, 1⟩, .semicolon, ";"⟩]

theorem semicolons_only_separate_some :
    ∃ a ts, (ofSource punctuated).1 = .ok a ∧ (Lexer.ofSource punctuated).tokens.answer = .ok ts ∧
      (∀ t ∈ someSemicolons, t.kind = .semicolon ∧ t ∈ commandPart ts) ∧
      Text.blanked (someSemicolons.map (·.span.offset)) punctuated =
        "program p integer: a, b; real: c begin read(a); c := a * 2  if a < b then b := a  " ++
        "a := -b else write(a)  write(b) $; write(c) end." ∧
      (ofSource (Text.blanked (someSemicolons.map (·.span.offset)) punctuated)).1 = .ok a := by
  have hok : (ofSource punctuated).1.isOk = true := by decide +kernel
  have hfound : (Lexer.ofSource punctuated).tokens.answer.toOption.map (fun ts =>
      someSemicolons.all fun t => decide (t.kind = .semicolon ∧ t ∈ commandPart ts)) =
        some true := by
    decide +kernel
  have hblanked : Text.blanked (someSemicolons.map (·.span.offset)) punctuated =
      "program p integer: a, b; real: c begin read(a); c := a * 2  if a < b then b := a  " ++
      "a := -b else write(a)  write(b) $; write(c) end." := by
    decide +kernel
  cases h : (ofSource punctuated).1 with
  | error failure =>
    rw [h] at hok
    cases hok
  | ok a =>
    cases hts : (Lexer.ofSource punctuated).tokens.answer with
    | error e =>
      rw [hts] at hfound
      cases hfound
    | ok ts =>
      rw [hts] at hfound
      have hchosen : ∀ t ∈ someSemicolons, t.kind = .semicolon ∧ t ∈ commandPart ts := by
        simpa only [List.all_eq_true, decide_eq_true_iff] using Option.some.inj hfound
      exact ⟨a, ts, rfl, rfl, hchosen, hblanked, semicolons_only_separate h hts hchosen⟩

end Analysis

end ThreeAddress
