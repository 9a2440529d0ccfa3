import Mathlib.Algebra.GroupWithZero.Nat
import Mathlib.Data.List.Forall2
import ThreeAddress.Proofs.Lexer.Positions
import ThreeAddress.Proofs.Syntax.Terminal

/-!
# Lexing undoes printing

Tokens are printed by writing their texts one after the other, with white space between them. How
much of it there is and of which kind does not matter, as long as there is some: the tokens that are
read back are the ones that were printed, at the places where they were put (`Lexer.tokens_print`).

What has to be seen is that white space completes a lexeme in whatever state the automaton is
(`Completes.of_blank`). Then it cannot matter which lexemes are neighbours.
-/

namespace ThreeAddress

open Text

/-! ## 1. Printing -/

/-- A lexeme, and the white space that is printed in front of it. -/
structure Printed where
  gap : String
  kind : TokenKind
  text : String

namespace Printed

/-- The text of some lexemes, with white space behind the last. -/
def print : List Printed → String → String
  | [], trailing => trailing
  | p :: ps, trailing => p.gap ++ (p.text ++ print ps trailing)

/-- The lexemes as tokens, at the places where they are printed. -/
def layout (offset : Nat) : List Printed → List Token
  | [] => []
  | p :: ps =>
    ⟨⟨offset + p.gap.utf8ByteSize, p.text.utf8ByteSize⟩, p.kind, p.text⟩ ::
      layout (offset + p.gap.utf8ByteSize + p.text.utf8ByteSize) ps

/-- There is nothing but white space around the lexemes, and some between any two of them. -/
structure Spaced (ps : List Printed) (trailing : String) : Prop where
  gaps : ∀ p ∈ ps, IsBlank p.gap.toList
  between : ∀ p ∈ ps.tail, p.gap ≠ ""
  trailing : IsBlank trailing.toList

end Printed

/-- A lexer can be made to hand out the text as a token of the kind. -/
def Lexer.Produces (kind : TokenKind) (text : String) : Prop :=
  ∃ source calls t,
    .token (some t) ∈ (ofSource source).answers calls ∧ t.kind = kind ∧ t.text = text

theorem Lexer.Produces.spells {kind : TokenKind} {text : String} (h : Produces kind text) :
    kind.Spells text := by
  obtain ⟨source, calls, t, ht, rfl, rfl⟩ := h
  exact ((placed_ofSource source).answers ht).spells

/-! ## 2. White space behind a lexeme -/

theorem Completes.of_blank {c : Char} (h : isWhiteSpace c = true) (kind : TokenKind)
    (lexeme : List Char) : Completes kind lexeme c := by
  have hletter : isAlphabetic c = false := by
    rw [← Bool.not_eq_true]
    intro hletter
    rw [isWhiteSpace_of_isAlphabetic hletter] at h
    cases h
  have hdigit : c.isDigit = false := by
    rw [← Bool.not_eq_true]
    intro hdigit
    rw [isWhiteSpace_of_isDigit hdigit] at h
    cases h
  have hmark : c ≠ '.' ∧ c ≠ '=' ∧ c ≠ '>' := by
    refine ⟨?_, ?_, ?_⟩ <;>
      · rintro rfl
        exact absurd h (by decide)
  obtain ⟨hpoint, hequals, hgreater⟩ := hmark
  exact {
    integer := fun _ => by simp [LexState.step, hdigit, hpoint, hletter]
    float := fun _ => by simp [LexState.step, hdigit, hletter]
    word := fun _ => by simp [LexState.step, hdigit, hletter]
    colon := fun _ => by simp [LexState.step, hequals, hdigit]
    relation := fun _ first _ _ => by simp [LexState.step, hequals, hgreater] }

theorem Cursor.stream_blank {gap : List Char} (h : IsBlank gap) (offset : Nat) (rest : List Char) :
    Cursor.stream ⟨offset, gap ++ rest⟩ = Cursor.stream ⟨offset + byteSize gap, rest⟩ := by
  induction gap generalizing offset with
  | nil => rfl
  | cons c gap ih =>
    obtain ⟨hc, hgap⟩ := List.forall_mem_cons.mp h
    rw [List.cons_append, stream_congr (scan_blank hc offset _), ih hgap, byteSize, Nat.add_assoc]

/-! ## 3. Reading back -/

namespace Printed

variable {p : Printed} {ps : List Printed} {trailing : String}

theorem toList_print_cons :
    (print (p :: ps) trailing).toList =
      p.gap.toList ++ (p.text.toList ++ (print ps trailing).toList) := by
  rw [print, String.toList_append, String.toList_append]

theorem Spaced.tail (h : Spaced (p :: ps) trailing) : Spaced ps trailing where
  gaps q hq := h.gaps q (List.mem_cons_of_mem p hq)
  between q hq := h.between q (List.mem_of_mem_tail hq)
  trailing := h.trailing

/-- Behind a lexeme comes white space: that in front of the next one, or that behind the last, or
the space that follows every source. -/
theorem Spaced.next (h : Spaced (p :: ps) trailing) :
    ∃ c more, (print ps trailing).toList ++ [' '] = c :: more ∧ isWhiteSpace c = true := by
  have hblank : ∀ gap rest : List Char, IsBlank gap → gap ≠ [] →
      ∃ c more, gap ++ rest = c :: more ∧ isWhiteSpace c = true := by
    intro gap rest hgap hne
    obtain ⟨c, more, rfl⟩ := List.exists_cons_of_ne_nil hne
    exact ⟨c, more ++ rest, rfl, (List.forall_mem_cons.mp hgap).1⟩
  cases ps with
  | nil =>
    have hall : IsBlank (trailing.toList ++ [' ']) :=
      List.forall_mem_append.mpr ⟨h.trailing, List.forall_mem_singleton.mpr (by decide)⟩
    have hfirst := hblank _ [] hall (by simp)
    rwa [List.append_nil] at hfirst
  | cons q ps =>
    have hq : q ∈ q :: ps := List.mem_cons_self
    have hne : q.gap.toList ≠ [] := fun hnil => h.between q hq (String.toList_eq_nil_iff.mp hnil)
    rw [toList_print_cons, List.append_assoc]
    exact hblank _ _ (h.tail.gaps q hq) hne

/-- **The lexemes that are printed are cut out one after the other.** -/
theorem stream_print (hspells : ∀ p ∈ ps, p.kind.Spells p.text) (hspaced : Spaced ps trailing)
    (offset : Nat) :
    Cursor.stream ⟨offset, (print ps trailing).toList ++ [' ']⟩ = ⟨layout offset ps, none⟩ := by
  induction ps generalizing offset with
  | nil =>
    rw [print, Cursor.stream_blank hspaced.trailing, layout]
    have hspace : IsBlank [' '] := List.forall_mem_singleton.mpr (by decide)
    have hend := Cursor.stream_blank hspace (offset + byteSize trailing.toList) []
    rw [List.append_nil] at hend
    rw [hend]
    exact Cursor.stream_of_rest_nil rfl
  | cons p ps ih =>
    obtain ⟨hp, hps⟩ := List.forall_mem_cons.mp hspells
    obtain ⟨c, more, hmore, hc⟩ := hspaced.next
    have hcuts : p.kind.Cuts p.text.toList ((print ps trailing).toList ++ [' ']) := by
      rw [hmore]
      exact (Completes.of_blank hc p.kind p.text.toList).cuts (by simpa using hp)
    have hgap : IsBlank p.gap.toList := hspaced.gaps p List.mem_cons_self
    rw [toList_print_cons, List.append_assoc, List.append_assoc, Cursor.stream_blank hgap,
      Cursor.stream_of_token (hcuts _), ih hps hspaced.tail, layout, Stream.cons, Token.ofChars]
    simp only [byteSize_toList, String.ofList_toList]

end Printed

/-! ## 4. Tokens joined by single spaces -/

/-- The tokens are equal one by one, wherever they stand. -/
def SameTokens (ts us : List Token) : Prop :=
  List.Forall₂ (fun t u => t.sameLexeme u = true) ts us

namespace Printed

/-- Some tokens, all but the first of them with a space in front. -/
def ofTokens : List Token → List Printed
  | [] => []
  | t :: ts => ⟨"", t.kind, t.text⟩ :: ts.map fun t => ⟨" ", t.kind, t.text⟩

variable {ts : List Token}

theorem print_spaces (t : Token) (ts : List Token) :
    t.text ++ print (ts.map fun t => ⟨" ", t.kind, t.text⟩) "" =
      " ".intercalate ((t :: ts).map Token.text) := by
  induction ts generalizing t with
  | nil => simp [print]
  | cons u ts ih =>
    rw [List.map_cons, print, ih u, List.map_cons, List.map_cons, List.map_cons,
      String.intercalate_cons_cons, String.append_assoc]

theorem print_ofTokens (ts : List Token) :
    print (ofTokens ts) "" = " ".intercalate (ts.map Token.text) := by
  cases ts with
  | nil => rfl
  | cons t ts =>
    rw [ofTokens, print, print_spaces]
    exact String.empty_append

theorem spaced_ofTokens (ts : List Token) : Spaced (ofTokens ts) "" := by
  have hempty : IsBlank "".toList := .nil
  have hspace : IsBlank " ".toList := List.forall_mem_singleton.mpr (by decide)
  cases ts with
  | nil => exact ⟨fun p hp => (by cases hp), fun p hp => (by cases hp), hempty⟩
  | cons t ts =>
    refine ⟨fun p hp => ?_, fun p hp => ?_, hempty⟩
    · rcases List.mem_cons.mp hp with rfl | hp
      · exact hempty
      · obtain ⟨u, -, rfl⟩ := List.mem_map.mp hp
        exact hspace
    · obtain ⟨u, -, rfl⟩ := List.mem_map.mp hp
      simp

theorem spells_ofTokens (h : ∀ t ∈ ts, t.kind.Spells t.text) :
    ∀ p ∈ ofTokens ts, p.kind.Spells p.text := by
  cases ts with
  | nil => exact fun p hp => by cases hp
  | cons t ts =>
    intro p hp
    rcases List.mem_cons.mp hp with rfl | hp
    · exact h t List.mem_cons_self
    · obtain ⟨u, hu, rfl⟩ := List.mem_map.mp hp
      exact h u (List.mem_cons_of_mem t hu)

theorem sameLexeme_layout_map (gap : String) (offset : Nat) (ts : List Token) :
    SameTokens ts (layout offset (ts.map fun t => ⟨gap, t.kind, t.text⟩)) := by
  induction ts generalizing offset with
  | nil => exact .nil
  | cons t ts ih => exact .cons (by simp [Token.sameLexeme, Token.is]) (ih _)

theorem sameLexeme_layout_ofTokens (ts : List Token) :
    SameTokens ts (layout 0 (ofTokens ts)) := by
  cases ts with
  | nil => exact .nil
  | cons t ts => exact .cons (by simp [Token.sameLexeme, Token.is]) (sameLexeme_layout_map ..)

end Printed

/-- **Lexing undoes printing.** Lexemes that are printed with white space between them are read
back, at the places where they were printed. So the tokens of a source, joined by single spaces, are
read back as equal tokens. -/
theorem Lexer.tokens_print :
    (∀ (ps : List Printed) (trailing : String), (∀ p ∈ ps, Produces p.kind p.text) →
      Printed.Spaced ps trailing →
      (ofSource (Printed.print ps trailing)).tokens.answer = .ok (Printed.layout 0 ps)) ∧
    ∀ (source : String) (ts : List Token), (ofSource source).tokens.answer = .ok ts →
      ∃ us, (ofSource (" ".intercalate (ts.map Token.text))).tokens.answer = .ok us ∧
        SameTokens ts us := by
  have hprint : ∀ (ps : List Printed) (trailing : String), (∀ p ∈ ps, p.kind.Spells p.text) →
      Printed.Spaced ps trailing →
      (ofSource (Printed.print ps trailing)).tokens.answer = .ok (Printed.layout 0 ps) :=
    fun ps trailing hspells hspaced =>
      tokens_ofSource_eq_ok_iff.mpr (Printed.stream_print hspells hspaced 0)
  refine ⟨fun ps trailing hproduces => hprint ps trailing fun p hp => (hproduces p hp).spells, ?_⟩
  intro source ts hts
  have hspells : ∀ t ∈ ts, t.kind.Spells t.text := by
    intro t ht
    have hmem : t ∈ (sourceStream source).tokens := by
      rwa [tokens_ofSource_eq_ok_iff.mp hts]
    exact sourceStream_spells hmem
  refine ⟨Printed.layout 0 (Printed.ofTokens ts), ?_, Printed.sameLexeme_layout_ofTokens ts⟩
  rw [← Printed.print_ofTokens]
  exact hprint _ "" (Printed.spells_ofTokens hspells) (Printed.spaced_ofTokens ts)

/-- Neighbours that would be one lexeme, or none, without the white space between them. -/
def neighbours : List Printed :=
  [⟨"", .typeDeclaration, ":"⟩, ⟨"\n", .integer, "1"⟩, ⟨"\u00a0", .keyword, "end"⟩,
    ⟨" ", .relational, "<"⟩, ⟨"\t ", .relational, ">"⟩]

theorem Lexer.tokens_print_neighbours :
    (∀ p ∈ neighbours, Produces p.kind p.text) ∧ Printed.Spaced neighbours " " ∧
    (ofSource ":\n1\u00a0end <\t > ").tokens.answer = .ok [⟨⟨0, 1⟩, .typeDeclaration, ":"⟩,
      ⟨⟨2, 1⟩, .integer, "1"⟩, ⟨⟨5, 3⟩, .keyword, "end"⟩, ⟨⟨9, 1⟩, .relational, "<"⟩,
      ⟨⟨12, 1⟩, .relational, ">"⟩] ∧
    ∃ us, (ofSource ": 1 end < >").tokens.answer = .ok us ∧
      SameTokens (Printed.layout 0 neighbours) us := by
  have hone : ∀ (kind : TokenKind) (text : String), (ofSource text).answers [.next] =
      [.token (some ⟨⟨0, text.utf8ByteSize⟩, kind, text⟩)] → Produces kind text := by
    intro kind text hanswers
    refine ⟨text, [.next], ⟨⟨0, text.utf8ByteSize⟩, kind, text⟩, ?_, rfl, rfl⟩
    rw [hanswers]
    exact List.mem_singleton_self _
  have hproduces : ∀ p ∈ neighbours, Produces p.kind p.text := by
    simp only [neighbours, List.forall_mem_cons, List.not_mem_nil, false_implies, implies_true,
      and_true]
    refine ⟨hone _ _ ?_, hone _ _ ?_, hone _ _ ?_, hone _ _ ?_, hone _ _ ?_⟩ <;> decide +kernel
  have hspaced : Printed.Spaced neighbours " " := by
    refine ⟨?_, ?_, ?_⟩ <;> simp [neighbours, IsBlank] <;> decide
  have htokens := tokens_print.1 _ _ hproduces hspaced
  exact ⟨hproduces, hspaced, htokens, tokens_print.2 _ _ htokens⟩

/-! ## 5. Lexemes that are written down -/

/-- Lexemes, each with a space in front of it. -/
def spacedOut (ls : List Lexeme) : List Printed :=
  ls.map fun l => ⟨" ", l.1, l.2⟩

theorem lexemes_layout (ls : List Lexeme) (offset : Nat) :
    (Printed.layout offset (spacedOut ls)).map Token.lexeme = ls := by
  induction ls generalizing offset with
  | nil => rfl
  | cons l ls ih => exact congrArg (l :: ·) (ih _)

theorem size_print (ls : List Lexeme) : (Printed.print (spacedOut ls) "").utf8ByteSize =
    (ls.map fun l => 1 + l.2.utf8ByteSize).sum := by
  induction ls with
  | nil => rfl
  | cons l ls ih =>
    rw [spacedOut, List.map_cons, Printed.print, String.utf8ByteSize_append,
      String.utf8ByteSize_append, ← spacedOut, ih, List.map_cons, List.sum_cons, Nat.add_assoc]
    rfl

/-- Lexemes that are spelled as their kinds require can be written down so that a lexer reads them
back. -/
theorem sourceStream_print {ls : List Lexeme} (h : ∀ l ∈ ls, l.1.Spells l.2) :
    sourceStream (Printed.print (spacedOut ls) "") = ⟨Printed.layout 0 (spacedOut ls), none⟩ := by
  have hmem : ∀ p ∈ spacedOut ls, ∃ l ∈ ls, p = ⟨" ", l.1, l.2⟩ := by
    intro p hp
    obtain ⟨l, hl, rfl⟩ := List.mem_map.mp hp
    exact ⟨l, hl, rfl⟩
  have hblank : Text.IsBlank " ".toList := List.forall_mem_singleton.mpr (by decide)
  have hspaced : Printed.Spaced (spacedOut ls) "" := by
    refine ⟨fun p hp => ?_, fun p hp => ?_, fun c hc => absurd hc List.not_mem_nil⟩
    · obtain ⟨l, -, rfl⟩ := hmem p hp
      exact hblank
    · obtain ⟨l, -, rfl⟩ := hmem p (List.mem_of_mem_tail hp)
      exact show " " ≠ "" by decide
  refine Printed.stream_print (fun p hp => ?_) hspaced 0
  obtain ⟨l, hl, rfl⟩ := hmem p hp
  exact h l hl

/-- What the lexer has cut out of some source is spelled as it has to be. -/
theorem spells_of_tokens {source : String} {ls : List Lexeme}
    (h : (Lexer.ofSource source).tokens.answer.toOption.map (·.map Token.lexeme) = some ls) :
    ∀ l ∈ ls, l.1.Spells l.2 := by
  obtain ⟨ts, hts, rfl⟩ := exists_of_map_toOption h
  intro l hl
  obtain ⟨t, ht, rfl⟩ := List.mem_map.mp hl
  refine sourceStream_spells (show t ∈ (sourceStream source).tokens from ?_)
  rwa [tokens_ofSource_eq_ok_iff.mp hts]

theorem size_repeated (n : Nat) (ls : List Lexeme) :
    ((List.replicate n ls).flatten.map fun l => 1 + l.2.utf8ByteSize).sum =
      n * (ls.map fun l => 1 + l.2.utf8ByteSize).sum := by
  simp [List.map_flatten, List.sum_flatten, List.map_replicate]

theorem mem_of_mem_repeated {ls : List Lexeme} {n : Nat} {l : Lexeme}
    (h : l ∈ (List.replicate n ls).flatten) : l ∈ ls := by
  obtain ⟨ms, hms, hl⟩ := List.mem_flatten.mp h
  rwa [List.eq_of_mem_replicate hms] at hl

end ThreeAddress
