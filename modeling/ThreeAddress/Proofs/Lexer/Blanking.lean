import Mathlib.Data.List.Nodup
import ThreeAddress.Proofs.Lexer.Calls
import ThreeAddress.Proofs.Lexer.Lossless

/-!
# Semicolons that are blanked

A semicolon is a lexeme by itself, so it also ends the lexeme in front of it. A space does the same:
once a lexeme has begun, the automaton makes no difference between the two
(`LexState.step_semicolon`). So if semicolons are replaced by spaces, the other tokens of the source
stay what they are and where they are (`sourceStream_blanked`).
-/

namespace ThreeAddress

open Text

/-! ## 1. Blanking -/

namespace Text

/-- Some characters that start at a byte offset, with spaces at the given offsets. -/
def blankFrom (offsets : List Nat) : Nat → List Char → List Char
  | _, [] => []
  | offset, c :: cs =>
    (if offset ∈ offsets then ' ' else c) :: blankFrom offsets (offset + c.utf8Size) cs

/-- A text with spaces at the given byte offsets. -/
def blanked (offsets : List Nat) (text : String) : String :=
  String.ofList (blankFrom offsets 0 text.toList)

/-- Semicolons are all that stands at the given offsets. -/
def OnSemicolons (offsets : List Nat) : Nat → List Char → Prop
  | _, [] => True
  | offset, c :: cs => (offset ∈ offsets → c = ';') ∧ OnSemicolons offsets (offset + c.utf8Size) cs

variable {offsets : List Nat}

theorem blankFrom_of_mem {offset : Nat} (h : offset ∈ offsets) (c : Char) (cs : List Char) :
    blankFrom offsets offset (c :: cs) = ' ' :: blankFrom offsets (offset + c.utf8Size) cs := by
  rw [blankFrom, if_pos h]

theorem blankFrom_of_not_mem {offset : Nat} (h : offset ∉ offsets) (c : Char) (cs : List Char) :
    blankFrom offsets offset (c :: cs) = c :: blankFrom offsets (offset + c.utf8Size) cs := by
  rw [blankFrom, if_neg h]

theorem blankFrom_append (offset : Nat) (cs ds : List Char) :
    blankFrom offsets offset (cs ++ ds) =
      blankFrom offsets offset cs ++ blankFrom offsets (offset + byteSize cs) ds := by
  induction cs generalizing offset with
  | nil => rfl
  | cons c cs ih =>
    rw [List.cons_append, blankFrom, blankFrom, ih, byteSize, Nat.add_assoc, List.cons_append]

theorem onSemicolons_of_forall {offset : Nat} {cs : List Char}
    (h : ∀ before c after,
      cs = before ++ c :: after → offset + byteSize before ∈ offsets → c = ';') :
    OnSemicolons offsets offset cs := by
  induction cs generalizing offset with
  | nil => trivial
  | cons c cs ih =>
    refine ⟨h [] c cs rfl, ih fun before d after heq hmem => ?_⟩
    refine h (c :: before) d after (by rw [heq, List.cons_append]) ?_
    rwa [byteSize, ← Nat.add_assoc]

end Text

/-! ## 2. The automaton -/

/-- Once a lexeme has begun, a semicolon is as good as a space. -/
theorem LexState.step_semicolon {st : LexState} (h : st ≠ .initial) :
    st.step ';' = st.step ' ' := by
  cases st with
  | initial => exact absurd rfl h
  | relation first => simp [step]
  | word | number | point | fraction | colon => decide

namespace Cursor

variable {offsets : List Nat} {st : LexState} {start offset : Nat} {lexeme : String}
  {cs : List Char} {r : Scan} {c c' : Cursor}

/-- The cursor in the text with spaces at the given offsets. -/
def blanked (offsets : List Nat) (c : Cursor) : Cursor :=
  ⟨c.offset, blankFrom offsets c.offset c.rest⟩

/-- A lexeme that has begun is cut out in the same way. -/
theorem scanFrom_blanked (hst : st ≠ .initial) (h : OnSemicolons offsets offset cs)
    (hscan : scanFrom st start lexeme offset cs = (r, c')) (hr : ∀ e, r ≠ .failed e) :
    scanFrom st start lexeme offset (blankFrom offsets offset cs) = (r, c'.blanked offsets) ∧
      OnSemicolons offsets c'.offset c'.rest ∧ ∀ t, r = .token t → t.span.offset = start := by
  induction cs generalizing st lexeme offset with
  | nil =>
    cases hscan
    refine ⟨rfl, trivial, fun t ht => ?_⟩
    cases ht
  | cons d cs ih =>
    by_cases hmem : offset ∈ offsets
    · -- the semicolon that is blanked ends the lexeme, and so does the space
      obtain rfl := h.1 hmem
      have hspace := st.takes_step_space
      rw [← LexState.step_semicolon hst] at hspace
      rw [blankFrom_of_mem hmem]
      rw [scanFrom] at hscan ⊢
      rw [← LexState.step_semicolon hst]
      cases hstep : st.step ';' with
      | skip => exact absurd (LexState.eq_initial_of_skip hstep) hst
      | shift st' =>
        rw [hstep] at hspace
        cases hspace
      | emit kind consume =>
        rw [hstep] at hspace hscan
        obtain rfl : consume = false := hspace
        cases hscan
        exact ⟨by rw [blanked, blankFrom_of_mem hmem], h, fun t ht => by cases ht; rfl⟩
      | fail flaw =>
        rw [hstep] at hscan
        cases hscan
        exact absurd rfl (hr _)
    · rw [blankFrom_of_not_mem hmem]
      rw [scanFrom] at hscan ⊢
      cases hstep : st.step d with
      | skip => exact absurd (LexState.eq_initial_of_skip hstep) hst
      | shift st' =>
        rw [hstep] at hscan
        have hst' : st' ≠ .initial := by
          rintro rfl
          exact st.step_ne_shift_initial d hstep
        exact ih hst' h.2 hscan
      | emit kind consume =>
        rw [hstep] at hscan
        cases consume with
        | true =>
          cases hscan
          exact ⟨rfl, h.2, fun t ht => by cases ht; rfl⟩
        | false =>
          cases hscan
          exact ⟨by rw [blanked, blankFrom_of_not_mem hmem], h, fun t ht => by cases ht; rfl⟩
      | fail flaw =>
        rw [hstep] at hscan
        cases hscan
        exact absurd rfl (hr _)

/-- So is one that begins with the next character, unless that is a semicolon to be blanked. -/
theorem scan_blanked {d : Char} (hmem : offset ∉ offsets)
    (hbegins : LexState.initial.step d ≠ .skip)
    (h : OnSemicolons offsets offset (d :: cs)) (hscan : scan ⟨offset, d :: cs⟩ = (r, c'))
    (hr : ∀ e, r ≠ .failed e) :
    scan (blanked offsets ⟨offset, d :: cs⟩) = (r, c'.blanked offsets) ∧
      OnSemicolons offsets c'.offset c'.rest ∧ ∀ t, r = .token t → t.span.offset = offset := by
  rw [blanked, blankFrom_of_not_mem hmem]
  rw [scan, scanFrom] at hscan ⊢
  cases hstep : LexState.initial.step d with
  | skip => exact absurd hstep hbegins
  | shift st =>
    rw [hstep] at hscan
    have hst : st ≠ .initial := by
      rintro rfl
      exact LexState.step_ne_shift_initial _ d hstep
    exact scanFrom_blanked hst h.2 hscan hr
  | emit kind consume =>
    rw [hstep] at hscan
    cases consume with
    | true =>
      cases hscan
      exact ⟨rfl, h.2, fun t ht => by cases ht; rfl⟩
    | false =>
      cases hscan
      exact ⟨by rw [blanked, blankFrom_of_not_mem hmem], h, fun t ht => by cases ht; rfl⟩
  | fail flaw =>
    rw [hstep] at hscan
    cases hscan
    exact absurd rfl (hr _)

theorem stream_of_skip {d : Char} (h : LexState.initial.step d = .skip) (offset : Nat)
    (cs : List Char) : stream ⟨offset, d :: cs⟩ = stream ⟨offset + d.utf8Size, cs⟩ := by
  refine stream_congr ?_
  rw [scan, scanFrom, h, scan]

/-- **A text with blanked semicolons has the tokens of the text, without those semicolons.** -/
theorem stream_blanked (h : OnSemicolons offsets c.offset c.rest) (herror : c.stream.error = none) :
    (c.blanked offsets).stream = ⟨c.stream.tokens.filter (·.span.offset ∉ offsets), none⟩ := by
  obtain ⟨offset, cs⟩ := c
  induction hn : cs.length using Nat.strong_induction_on generalizing offset cs with
  | _ n ih =>
    subst hn
    cases cs with
    | nil =>
      rw [stream_of_rest_nil rfl, stream_of_rest_nil rfl]
      rfl
    | cons d cs =>
      by_cases hmem : offset ∈ offsets
      · -- the semicolon is a token that is lost, and the space in its place is skipped
        obtain rfl := h.1 hmem
        have hscan : scan ⟨offset, ';' :: cs⟩ =
            (.token (.ofLexeme .semicolon offset (offset + 1) ";"), ⟨offset + 1, cs⟩) := rfl
        have hblank : (blanked offsets ⟨offset, ';' :: cs⟩).stream =
            (blanked offsets ⟨offset + 1, cs⟩).stream := by
          rw [blanked, blankFrom_of_mem hmem]
          exact stream_of_skip (by decide) ..
        rw [stream_of_token hscan] at herror ⊢
        rw [hblank, ih cs.length (Nat.lt_succ_self _) (offset + 1) cs h.2 herror rfl]
        simp [Stream.cons, Token.ofLexeme, hmem]
      by_cases hskip : LexState.initial.step d = .skip
      · have hblank : (blanked offsets ⟨offset, d :: cs⟩).stream =
            (blanked offsets ⟨offset + d.utf8Size, cs⟩).stream := by
          rw [blanked, blankFrom_of_not_mem hmem]
          exact stream_of_skip hskip ..
        rw [stream_of_skip hskip] at herror ⊢
        rw [hblank]
        exact ih cs.length (Nat.lt_succ_self _) _ cs h.2 herror rfl
      · rcases hscan : scan ⟨offset, d :: cs⟩ with ⟨r, c'⟩
        cases r with
        | failed e =>
          rw [stream_of_failed hscan] at herror
          cases herror
        | ended st =>
          obtain ⟨hblanked, -⟩ := scan_blanked hmem hskip h hscan (by simp)
          rw [stream_of_ended hscan, stream_of_ended hblanked]
          rfl
        | token t =>
          obtain ⟨hblanked, hnext, hoffset⟩ := scan_blanked hmem hskip h hscan (by simp)
          have hshorter : c'.rest.length < (d :: cs).length := by
            have hlt := length_rest_scan_lt ⟨offset, d :: cs⟩ t (by rw [hscan])
            rwa [hscan] at hlt
          rw [stream_of_token hscan] at herror ⊢
          have hkept : t.span.offset ∉ offsets := by rwa [hoffset t rfl]
          rw [stream_of_token hblanked, ih _ hshorter c'.offset c'.rest hnext herror rfl]
          simp [Stream.cons, hkept]

end Cursor

/-! ## 3. Sources -/

variable {source : String} {ts : List Token}

/-- A character of a source is the one at its offset. -/
theorem eq_of_byteSize_eq {before before' after after' : List Char} {c c' : Char}
    (h : before ++ c :: after = before' ++ c' :: after')
    (hsize : byteSize before = byteSize before') : c = c' := by
  have hdrop := dropBytes?_append before (c :: after)
  rw [h, hsize, dropBytes?_append, Option.some_inj] at hdrop
  exact (List.cons.inj hdrop).1.symm

/-- The semicolons among the tokens stand where they say. -/
theorem onSemicolons_of_tokens
    (h : ∀ t ∈ ts, t.kind = .semicolon ∧ t ∈ (sourceStream source).tokens) :
    OnSemicolons (ts.map (·.span.offset)) 0 (source.toList ++ [' ']) := by
  obtain ⟨front, tail, -, hdecomposes, -⟩ := exists_decomposes source
  refine onSemicolons_of_forall fun before c after heq hmem => ?_
  obtain ⟨t, ht, hoffset⟩ := List.mem_map.mp hmem
  obtain ⟨hkind, hstream⟩ := h t ht
  obtain ⟨before', after', hsource, -, hspan⟩ := hdecomposes.covers.exists_split hstream
  rw [hspan] at hoffset
  have htext := ((sourceStream_liesIn source).1.tokens t hstream).text_eq hkind
  rw [hsource, htext] at heq
  have hsplit : before ++ c :: after = before' ++ ';' :: (after' ++ [' ']) := by
    rw [← heq]
    simp
  exact eq_of_byteSize_eq hsplit (Nat.add_left_cancel hoffset).symm

/-- **The tokens of a source with blanked semicolons** are the tokens of the source without them. -/
theorem sourceStream_blanked (herror : (sourceStream source).error = none)
    (h : ∀ t ∈ ts, t.kind = .semicolon ∧ t ∈ (sourceStream source).tokens) :
    sourceStream (blanked (ts.map (·.span.offset)) source) =
      ⟨(sourceStream source).tokens.filter (· ∉ ts), none⟩ := by
  have htext : (blanked (ts.map (·.span.offset)) source).toList ++ [' '] =
      blankFrom (ts.map (·.span.offset)) 0 (source.toList ++ [' ']) := by
    rw [blankFrom_append, blanked, String.toList_ofList, blankFrom, ite_self]
    rfl
  have hstream :=
    Cursor.stream_blanked (c := ⟨0, source.toList ++ [' ']⟩) (onSemicolons_of_tokens h) herror
  rw [Cursor.blanked, ← htext] at hstream
  refine hstream.trans (congrArg (Stream.mk · none) (List.filter_congr fun t ht => ?_))
  simp only [decide_eq_decide, List.mem_map, not_iff_not]
  -- a token is told by its offset
  constructor
  · rintro ⟨u, hu, hoffset⟩
    rwa [← List.inj_on_of_nodup_map (nodup_offsets source) (h u hu).2 ht hoffset]
  · exact fun hmem => ⟨t, hmem, rfl⟩

end ThreeAddress
