import ThreeAddress.Proofs.Analysis.Depth
import ThreeAddress.Proofs.Location.Excerpt

/-!
# Running out of temporaries

Every operation of a source draws a temporary, and the counter of temporaries has an end. An
analysis that comes to this end stops with a fault, wherever it is in the source. It is the one way
in which an analysis does not report the first bad position (`Analysis.reports_first_bad_position`).
It takes as many operators in front of that position as the counter has values, and where no
position is bad, that many are also enough (`outOfTemporaries_iff`).

There are such sources. The sums `longSum n` are programs, so none of their positions is bad, and
with `n` additions they need `n` temporaries (`Analysis.longSum_fails`).
-/

namespace ThreeAddress

open Grammar

/-! ## 1. Reports of the first bad position -/

section

variable {source : String}

/-- The analysis fails exactly if there is a bad position, and it reports the first one. -/
def ReportsFirstBad (source : String) : Prop :=
  ((∃ failure, (Analysis.ofSource source).1 = .error failure) ↔
      ∃ k, (sourceStream source).Bad k) ∧
    ∀ k, (sourceStream source).Bad k → (∀ j < k, ¬ (sourceStream source).Bad j) →
      ∃ d, (Analysis.ofSource source).1 = .error (.rejected d) ∧
        (sourceStream source).Reported source k d

/-- There is only one first bad position. -/
theorem Stream.Bad.first_unique {x : Stream} {k k' : Nat} (hbad : x.Bad k) (hbad' : x.Bad k')
    (hfirst : ∀ j < k, ¬ x.Bad j) (hfirst' : ∀ j < k', ¬ x.Bad j) : k' = k := by
  rcases Nat.lt_trichotomy k' k with hlt | heq | hgt
  · exact absurd hbad' (hfirst k' hlt)
  · exact heq
  · exact absurd hbad (hfirst' k hgt)

/-- A report of an undeclared name is about the token at the position, and stands at its place. -/
theorem Stream.Reported.token_of_undeclared {x : Stream} {k : Nat} {d : Diagnostic} {name : String}
    (h : x.Reported source k d) (hcause : d.cause = .declaration (.undeclared name)) :
    ∃ t, x.tokens[k]? = some t ∧ t.kind = .identifier ∧ t.text = name ∧
      d.location.map Location.span = some t.span := by
  cases h with
  | @undeclared t location stack token viable unknown place =>
    cases hcause
    exact ⟨t, token, unknown.1, rfl, congrArg some (Location.resolve_spec place).1⟩
  | _ => cases hcause

theorem Stream.exists_first_bad {x : Stream} (h : ∃ k, x.Bad k) :
    ∃ k, x.Bad k ∧ ∀ j < k, ¬ x.Bad j := by
  classical
  exact ⟨Nat.find h, Nat.find_spec h, fun j hj => Nat.find_min h hj⟩

theorem outOfTemporaries_or_reportsFirstBad (hsize : source.utf8ByteSize < textLimit) :
    OutOfTemporaries source ∨ ReportsFirstBad source := by
  rcases verdict hsize with ⟨⟨a, ha⟩, hgood⟩ | ⟨k, d, hd, hfirst, hbad, hreported⟩ | hout
  · refine .inr ⟨iff_of_false ?_ fun ⟨k, hk⟩ => hgood k hk, fun k hk => absurd hk (hgood k)⟩
    rintro ⟨failure, hfailure⟩
    rw [ha] at hfailure
    cases hfailure
  · refine .inr ⟨iff_of_true ⟨_, hd⟩ ⟨k, hbad⟩, fun k' hbad' hfirst' => ?_⟩
    obtain rfl : k' = k := hbad.first_unique hbad' hfirst hfirst'
    exact ⟨d, hd, hreported⟩
  · exact .inl hout

theorem OutOfTemporaries.tempLimit_le (h : OutOfTemporaries source) :
    Generator.tempLimit ≤ operatorCount (sourceStream source).tokens := by
  obtain ⟨-, n, -, hmany⟩ := h
  exact Nat.le_trans hmany (List.take_sublist n _).countP_le

/-- A fault is not a report. -/
theorem OutOfTemporaries.not_reportsFirstBad (h : OutOfTemporaries source) :
    ¬ ReportsFirstBad source := by
  rintro ⟨hfails, hreports⟩
  obtain ⟨k, hbad, hfirst⟩ := Stream.exists_first_bad (hfails.mp ⟨_, h.1⟩)
  obtain ⟨d, hd, -⟩ := hreports k hbad hfirst
  rw [h.1] at hd
  cases hd

/-- **Operations without a temporary**, in a source with no bad position. -/
theorem outOfTemporaries_iff (hsize : source.utf8ByteSize < textLimit)
    (hgood : ∀ k, ¬ (sourceStream source).Bad k) :
    OutOfTemporaries source ↔
      Generator.tempLimit ≤ operatorCount (sourceStream source).tokens := by
  refine ⟨OutOfTemporaries.tempLimit_le, fun hmany => ?_⟩
  rcases verdict hsize with ⟨⟨a, ha⟩, -⟩ | ⟨k, d, -, -, hbad, -⟩ | hout
  · exact absurd hmany (Nat.not_le_of_lt (operatorCount_lt_of_ok ha))
  · exact absurd hbad (hgood k)
  · exact hout

end

namespace Analysis

/-- **An analysis fails exactly if there is a bad position, and it reports the first one**, unless
it runs out of temporaries. If no position is bad, that happens exactly if there are as many
operators as the counter of temporaries has values. -/
theorem reports_first_bad_position {source : String} (hsize : source.utf8ByteSize < textLimit) :
    (ReportsFirstBad source ↔ ¬ OutOfTemporaries source) ∧
    ((∀ k, ¬ (sourceStream source).Bad k) → (OutOfTemporaries source ↔
      Generator.tempLimit ≤ operatorCount (sourceStream source).tokens)) :=
  ⟨⟨fun hreports hout => hout.not_reportsFirstBad hreports,
      (outOfTemporaries_or_reportsFirstBad hsize).resolve_left⟩,
    outOfTemporaries_iff hsize⟩

/-- The name `x` is not declared. -/
def undeclaredTarget : String :=
  "program p begin x := 1 end."

theorem reports_first_bad_position_of_undeclared :
    undeclaredTarget.utf8ByteSize < textLimit ∧ ReportsFirstBad undeclaredTarget ∧
    ∃ k d, (ofSource undeclaredTarget).1 = .error (.rejected d) ∧
      (sourceStream undeclaredTarget).Bad k ∧ (∀ j < k, ¬ (sourceStream undeclaredTarget).Bad j) ∧
      (sourceStream undeclaredTarget).tokens[k]? = some ⟨⟨16, 1⟩, .identifier, "x"⟩ ∧
      d.cause = .declaration (.undeclared "x") ∧
      d.location.map Location.span = some ⟨16, 1⟩ := by
  have hsize : undeclaredTarget.utf8ByteSize < textLimit := by decide
  obtain ⟨d, hanswer, hd⟩ : ∃ d, (ofSource undeclaredTarget).1 = .error (.rejected d) ∧
      (d.cause, d.location.map Location.span) =
        (.declaration (.undeclared "x"), some ⟨16, 1⟩) :=
    exists_of_map_rejection? (by decide +kernel)
  obtain ⟨hcause, hspan⟩ := Prod.mk.inj hd
  have hreports : ReportsFirstBad undeclaredTarget := by
    refine (reports_first_bad_position hsize).1.mpr fun hout => ?_
    rw [hout.1] at hanswer
    cases hanswer
  obtain ⟨k, hbad, hfirst⟩ := Stream.exists_first_bad (hreports.1.mp ⟨_, hanswer⟩)
  obtain ⟨d', hd', hreported⟩ := hreports.2 k hbad hfirst
  rw [hanswer] at hd'
  cases hd'
  obtain ⟨t, token, hkind, htext, hplace⟩ := hreported.token_of_undeclared hcause
  refine ⟨hsize, hreports, k, d, hanswer, hbad, hfirst, ?_, hcause, hspan⟩
  obtain ⟨span, kind, text⟩ := t
  rw [hspan] at hplace
  cases hkind
  cases htext
  cases hplace
  exact token

end Analysis

/-! ## 2. A sum that is too long -/

/-- An addition. -/
def oneAddition : List Lexeme :=
  [Arithmetic.add.lexeme, (.identifier, "a")]

/-- What comes in front of the additions, and what comes behind them. -/
def sumStart : List Lexeme :=
  heading ++ [(.identifier, "a"), (.attributor, ":="), (.identifier, "a")]

def sumEnd : List Lexeme :=
  [Keyword.endWord.lexeme, Mark.point.lexeme]

def sumTerms : Nat → Tree .otherTerms
  | 0 => .endTerms
  | n + 1 => .otherTerms .add (by decide) (.term .noSign (.identifier "a") .endFactors) (sumTerms n)

/-- A program that adds up `a` many times. -/
def sumProgram (n : Nat) : Tree .program :=
  .program "p" (.body
    (.declarations (.varDeclaration (.varType .integer) (.variableNames "a" .endVariables))
      .endDeclarations)
    (.commands
      (.assign "a" (.expression (.term .noSign (.identifier "a") .endFactors) (sumTerms n)))
      .endCommands))

/-- The source `program p integer : a begin a := a + a + … + a end .` with `n` additions. -/
def longSum (n : Nat) : String :=
  Printed.print (spacedOut (sumProgram n).lexemes) ""

variable {n : Nat}

theorem lexemes_sumProgram (n : Nat) :
    (sumProgram n).lexemes = sumStart ++ (List.replicate n oneAddition).flatten ++ sumEnd := by
  have hterms : (sumTerms n).lexemes = (List.replicate n oneAddition).flatten := by
    induction n with
    | zero => rfl
    | succ n ih =>
      rw [sumTerms, Tree.lexemes, ih, List.replicate_succ, List.flatten_cons]
      rfl
  simp [sumProgram, Tree.lexemes, hterms, sumStart, sumEnd, heading, VarType.name, Keyword.lexeme,
    Keyword.text]

/-- However long the sum is, it has only a few lexemes. -/
theorem mem_of_mem_sumProgram {l : Lexeme} (h : l ∈ (sumProgram n).lexemes) :
    l ∈ sumStart ++ oneAddition ++ sumEnd := by
  rw [lexemes_sumProgram] at h
  simp only [List.mem_append] at h ⊢
  exact h.imp_left (Or.imp_right mem_of_mem_repeated)

theorem spells_sumProgram (n : Nat) : ∀ l ∈ (sumProgram n).lexemes, l.1.Spells l.2 := by
  have hspells : ∀ l ∈ sumStart ++ oneAddition ++ sumEnd, l.1.Spells l.2 :=
    @spells_of_tokens "program p integer : a begin a := a + a end ." _ (by decide +kernel)
  exact fun l hl => hspells l (mem_of_mem_sumProgram hl)

theorem lexemes_longSum (n : Nat) :
    (sourceStream (longSum n)).tokens.map Token.lexeme = (sumProgram n).lexemes := by
  rw [longSum, sourceStream_print (spells_sumProgram n), lexemes_layout]

theorem wellNamed_longSum (n : Nat) : WellNamed (sourceStream (longSum n)).tokens := by
  obtain ⟨hdeclared, hcommands⟩ := lexemes_parts (sourceStream (longSum n)).tokens
  rw [lexemes_longSum, lexemes_sumProgram] at hdeclared hcommands
  have hnames : identifiers (declarationPart (sourceStream (longSum n)).tokens) = ["a"] := by
    rw [identifiers_eq_names, hdeclared]
    rfl
  refine wellNamed_iff.mpr ⟨by simp [hnames], fun x hx => ?_⟩
  rw [identifiers_eq_names, hcommands, mem_names_iff_mem] at hx
  have hmem : (TokenKind.identifier, x) ∈ (Keyword.beginWord.lexeme :: [(.identifier, "a"),
      (.attributor, ":="), (.identifier, "a")]) ++
        (List.replicate n oneAddition).flatten ++ sumEnd :=
    hx
  rw [List.mem_append, List.mem_append] at hmem
  rw [hnames, List.mem_singleton]
  rcases hmem with (hstart | hrepeated) | hend
  · simpa [Keyword.lexeme] using hstart
  · simpa [oneAddition, Arithmetic.lexeme] using mem_of_mem_repeated hrepeated
  · simp [sumEnd, Keyword.lexeme, Mark.lexeme] at hend

theorem operatorCount_longSum (n : Nat) : operatorCount (sourceStream (longSum n)).tokens = n := by
  have hkind : Token.operates = (fun l : Lexeme => decide (l.1 = .operator ∨ l.1 = .relational)) ∘
      Token.lexeme := rfl
  rw [operatorCount, hkind, ← List.countP_map, lexemes_longSum, lexemes_sumProgram]
  simp [List.countP_flatten, List.map_replicate, sumStart, sumEnd, heading, oneAddition,
    Keyword.lexeme, Mark.lexeme, Arithmetic.lexeme]

theorem size_longSum (n : Nat) : (longSum n).utf8ByteSize = 4 * n + 41 := by
  rw [longSum, size_print, lexemes_sumProgram, List.map_append, List.map_append, List.sum_append,
    List.sum_append, size_repeated,
    show (oneAddition.map fun l => 1 + l.2.utf8ByteSize).sum = 4 by decide,
    show (sumStart.map fun l => 1 + l.2.utf8ByteSize).sum = 35 by decide,
    show (sumEnd.map fun l => 1 + l.2.utf8ByteSize).sum = 6 by decide]
  omega

/-- No position of such a sum is bad. -/
theorem not_bad_longSum (n k : Nat) : ¬ (sourceStream (longSum n)).Bad k := by
  refine Stream.forall_not_bad_iff.mpr ⟨?_, ?_, wellNamed_longSum n⟩ k
  · rw [longSum, sourceStream_print (spells_sumProgram n)]
  · exact Tree.derivable (lexemes_longSum n)

namespace Analysis

/-- **A source without a bad position can fail**: a sum with as many additions as the counter of
temporaries has values. -/
theorem longSum_fails :
    (longSum Generator.tempLimit).utf8ByteSize < textLimit ∧
    (∀ k, ¬ (sourceStream (longSum Generator.tempLimit)).Bad k) ∧
    (ofSource (longSum Generator.tempLimit)).1 = .error (.fault .additionOverflow) ∧
    ¬ ReportsFirstBad (longSum Generator.tempLimit) := by
  have hsize : (longSum Generator.tempLimit).utf8ByteSize < textLimit := by
    rw [size_longSum]
    decide
  have hgood := not_bad_longSum Generator.tempLimit
  have hout : OutOfTemporaries (longSum Generator.tempLimit) := by
    rw [outOfTemporaries_iff hsize hgood, operatorCount_longSum]
  exact ⟨hsize, hgood, hout.1, hout.not_reportsFirstBad⟩

end Analysis

end ThreeAddress
