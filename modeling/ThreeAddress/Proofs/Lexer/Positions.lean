import ThreeAddress.Proofs.Lexer.Lossless
import ThreeAddress.Proofs.Lexer.Retraction

/-!
# Where a lexer stands

A lexer may be worked on after a lexical error. The failed run has then left the cursor in the
middle of a lexeme, and the next run starts from there, which is a place that no run without errors
comes to. What can be relied on all the same is said here for every lexer that any calls lead to.

The cursor stands between two characters of the text (`Cursor.At`), and a run of the automaton keeps
it so. Such a run is also safe in the sense of `Checked`. That is the automaton over again, but it
knows only byte offsets and has to find a character at each of them, and it stops short where an
offset, a span or the state at the end would be a wrong one. The tokens that a lexer holds have been
cut out of the source in front of the cursor (`Lexer.Placed`).
-/

namespace ThreeAddress

open Text

/-! ## 1. Byte offsets -/

namespace Text

variable {n : Nat} {c : Char} {cs rest : List Char}

theorem exists_of_dropBytes? (h : dropBytes? n cs = some rest) :
    ∃ before, cs = before ++ rest ∧ byteSize before = n := by
  fun_induction dropBytes? n cs with
  | case1 cs =>
    cases h
    exact ⟨[], rfl, rfl⟩
  | case2 => cases h
  | case3 n c cs hle ih =>
    obtain ⟨before, rfl, hsize⟩ := ih h
    refine ⟨c :: before, rfl, ?_⟩
    rw [byteSize, hsize]
    omega
  | case4 => cases h

theorem dropBytes?_eq_some_iff :
    dropBytes? n cs = some rest ↔ ∃ before, cs = before ++ rest ∧ byteSize before = n := by
  refine ⟨exists_of_dropBytes?, ?_⟩
  rintro ⟨before, rfl, rfl⟩
  exact dropBytes?_append before rest

/-- Behind a character that starts at an offset. -/
theorem dropBytes?_next (h : dropBytes? n cs = some (c :: rest)) :
    dropBytes? (n + c.utf8Size) cs = some rest := by
  obtain ⟨before, rfl, rfl⟩ := exists_of_dropBytes? h
  refine dropBytes?_eq_some_iff.mpr ⟨before ++ [c], by simp, ?_⟩
  simp [byteSize_append, byteSize]

theorem add_byteSize_of_dropBytes? (h : dropBytes? n cs = some rest) :
    n + byteSize rest = byteSize cs := by
  obtain ⟨before, rfl, rfl⟩ := exists_of_dropBytes? h
  rw [byteSize_append]

end Text

/-! ## 2. Runs that check -/

/-- A run of the automaton on a text that is known by byte offsets only, with how it ends and where
it stops. There is no such run unless a character starts at every offset it comes to, no offset is
larger than the text, a lexeme starts no later than it stops, and the automaton is between lexemes
when the characters run out. -/
inductive Checked (text : List Char) : LexState → Nat → String → Nat → Scan → Nat → Prop where
  | ended {start offset : Nat} {lexeme : String} (hrest : dropBytes? offset text = some []) :
      Checked text .initial start lexeme offset (.ended .initial) offset
  | skip {state : LexState} {start offset stop : Nat} {lexeme : String} {c : Char}
      {more : List Char}
      {scan : Scan} (hrest : dropBytes? offset text = some (c :: more)) (hs : state.step c = .skip)
      (hfits : offset + c.utf8Size ≤ byteSize text)
      (hmore : Checked text state (offset + c.utf8Size) lexeme (offset + c.utf8Size) scan stop) :
      Checked text state start lexeme offset scan stop
  | shift {state state' : LexState} {start offset stop : Nat} {lexeme : String} {c : Char}
      {more : List Char} {scan : Scan} (hrest : dropBytes? offset text = some (c :: more))
      (hs : state.step c = .shift state') (hfits : offset + c.utf8Size ≤ byteSize text)
      (hmore : Checked text state' start (lexeme.push c) (offset + c.utf8Size) scan stop) :
      Checked text state start lexeme offset scan stop
  | emitWith {state : LexState} {start offset : Nat} {lexeme : String} {c : Char} {more : List Char}
      {kind : TokenKind} (hrest : dropBytes? offset text = some (c :: more))
      (hs : state.step c = .emit kind true) (hfits : offset + c.utf8Size ≤ byteSize text)
      (hstart : start ≤ offset + c.utf8Size) :
      Checked text state start lexeme offset
        (.token (.ofLexeme kind start (offset + c.utf8Size) (lexeme.push c))) (offset + c.utf8Size)
  | emitBefore {state : LexState} {start offset : Nat} {lexeme : String} {c : Char}
      {more : List Char} {kind : TokenKind} (hrest : dropBytes? offset text = some (c :: more))
      (hs : state.step c = .emit kind false) (hstart : start ≤ offset) :
      Checked text state start lexeme offset (.token (.ofLexeme kind start offset lexeme)) offset
  | fail {state : LexState} {start offset : Nat} {lexeme : String} {c : Char} {more : List Char}
      {flaw : Flaw} (hrest : dropBytes? offset text = some (c :: more))
      (hs : state.step c = .fail flaw) :
      Checked text state start lexeme offset (.failed ⟨flaw, c, ⟨offset, c.utf8Size⟩⟩) offset

namespace Cursor

variable {text cs : List Char} {state : LexState} {start offset : Nat} {lexeme : String}

/-- The cursor stands between two characters of the text, and the rest is what follows. -/
def At (text : List Char) (c : Cursor) : Prop :=
  dropBytes? c.offset text = some c.rest

theorem at_scanFrom (hrest : dropBytes? offset text = some cs) :
    (scanFrom state start lexeme offset cs).2.At text ∧
      offset ≤ (scanFrom state start lexeme offset cs).2.offset := by
  induction cs generalizing state start lexeme offset with
  | nil => exact ⟨hrest, Nat.le_refl _⟩
  | cons c cs ih =>
    have hnext := dropBytes?_next hrest
    have hle : offset ≤ offset + c.utf8Size := Nat.le_add_right _ _
    rw [scanFrom]
    split
    · obtain ⟨hat, hmore⟩ := ih hnext
      exact ⟨hat, Nat.le_trans hle hmore⟩
    · obtain ⟨hat, hmore⟩ := ih hnext
      exact ⟨hat, Nat.le_trans hle hmore⟩
    · exact ⟨hnext, hle⟩
    · exact ⟨hrest, Nat.le_refl _⟩
    · exact ⟨hrest, Nat.le_refl _⟩

theorem At.scan {c : Cursor} (h : c.At text) : c.scan.2.At text ∧ c.offset ≤ c.scan.2.offset :=
  at_scanFrom h

/-- In front of the space behind the source, a run passes all checks. -/
theorem checked_scanFrom (hrest : dropBytes? offset text = some (cs ++ [' ']))
    (hstart : start ≤ offset) :
    Checked text state start lexeme offset (scanFrom state start lexeme offset (cs ++ [' '])).1
      (scanFrom state start lexeme offset (cs ++ [' '])).2.offset := by
  induction cs generalizing state start lexeme offset with
  | nil =>
    have hnext := dropBytes?_next hrest
    have hfits := add_byteSize_of_dropBytes? hnext
    have hspace := state.takes_step_space
    rw [List.nil_append, scanFrom]
    split
    · rename_i hs
      obtain rfl := LexState.eq_initial_of_skip hs
      exact .skip hrest hs (Nat.le.intro hfits) (.ended hnext)
    · rename_i hs; rw [hs] at hspace; cases hspace
    · rename_i hs; rw [hs] at hspace; cases hspace
    · exact .emitBefore hrest ‹_› hstart
    · exact .fail hrest ‹_›
  | cons c cs ih =>
    have hnext : dropBytes? (offset + c.utf8Size) text = some (cs ++ [' ']) := dropBytes?_next hrest
    have hfits := Nat.le.intro (add_byteSize_of_dropBytes? hnext)
    have hstart' : start ≤ offset + c.utf8Size := Nat.le_add_right_of_le hstart
    rw [List.cons_append, scanFrom]
    split
    · exact .skip hrest ‹_› hfits (ih hnext (Nat.le_refl _))
    · exact .shift hrest ‹_› hfits (ih hnext hstart')
    · exact .emitWith hrest ‹_› hfits hstart'
    · exact .emitBefore hrest ‹_› hstart
    · exact .fail hrest ‹_›

end Cursor

/-! ## 3. In a source -/

namespace Cursor

variable {source : List Char} {c c' : Cursor} {t : Token}

/-- The space behind the source is still to come, or it has been passed. -/
theorem At.cases (h : c.At (source ++ [' '])) :
    c.rest = [] ∨ ∃ front cs,
      source = front ++ cs ∧ c.rest = cs ++ [' '] ∧ byteSize front = c.offset := by
  obtain ⟨front, hfront, hsize⟩ := exists_of_dropBytes? h
  rcases List.eq_nil_or_concat c.rest with hnil | ⟨cs, last, hrest⟩
  · exact .inl hnil
  · rw [List.concat_eq_append] at hrest
    rw [hrest, ← List.append_assoc] at hfront
    obtain ⟨hsource, hlast⟩ := List.append_inj' hfront rfl
    obtain rfl : ' ' = last := List.singleton_inj.mp hlast
    exact .inr ⟨front, cs, hsource, hrest, hsize⟩

theorem At.checked_scan (h : c.At (source ++ [' '])) :
    Checked (source ++ [' ']) .initial c.offset "" c.offset c.scan.1 c.scan.2.offset := by
  have hat := h
  unfold Cursor.At at hat
  rw [Cursor.scan]
  rcases h.cases with hnil | ⟨front, cs, -, hrest, -⟩
  · rw [hnil] at hat ⊢
    exact .ended hat
  · rw [hrest] at hat ⊢
    exact checked_scanFrom hat (Nat.le_refl _)

end Cursor

/-- The token is spelled as its kind requires, and its text stands in the source where its span
says. -/
structure Token.StandsIn (source : List Char) (t : Token) : Prop where
  spells : t.kind.Spells t.text
  place : ∃ before after, source = before ++ (t.text.toList ++ after) ∧
    t.span = ⟨byteSize before, byteSize t.text.toList⟩

namespace Token.StandsIn

variable {source : List Char} {t : Token}

theorem len_pos (h : t.StandsIn source) : 0 < t.span.len := by
  obtain ⟨before, after, -, hspan⟩ := h.place
  have hlength : 0 < t.text.toList.length := by
    simpa [Nat.pos_iff_ne_zero] using h.spells.ne_empty
  rw [hspan]
  exact Nat.lt_of_lt_of_le hlength (length_le_byteSize _)

end Token.StandsIn

namespace Cursor

variable {source : List Char} {c c' : Cursor} {t : Token}

/-- **A token that a run cuts out stands in the source**, wherever the run started, and it ends
where the run stops. -/
theorem At.scan_token (h : c.At (source ++ [' '])) (hs : c.scan = (.token t, c')) :
    t.StandsIn source ∧ t.span.offset + t.span.len = c'.offset := by
  rcases h.cases with hnil | ⟨front, cs, rfl, hrest, hsize⟩
  · rw [Cursor.scan, hnil, scanFrom] at hs
    cases hs
  · have hinside : c.Inside (c.offset + byteSize cs) := ⟨cs, hrest, rfl⟩
    have hends := hinside.endsInside_scan
    have hstream := stream_of_token hs
    have hmem : t ∈ c.stream.tokens := by
      rw [hstream]
      exact List.mem_cons_self
    obtain ⟨x, hx⟩ := exists_longestMatch c.offset c.rest
    obtain rfl : c.stream = x := hx.stream_eq (.inr ⟨cs, hrest⟩)
    obtain ⟨-, tail, -, hcovers, -⟩ := hx.covers hrest
    obtain ⟨before, after, hcs, -, hspan⟩ := hcovers.exists_split hmem
    rw [hs] at hends
    refine ⟨⟨spells_of_mem_stream hmem, front ++ before, after, ?_, ?_⟩, hends.2⟩
    · rw [hcs, List.append_assoc]
    · rw [hspan, byteSize_append, hsize]

end Cursor

/-! ## 4. What a call can do -/

namespace Lexer

/-- The token is the one that may be given back, or the one that waits. -/
def Keeps (l : Lexer) (t : Token) : Prop :=
  l.last = some t ∨ l.pushback = some t

/-- What a call can do: it makes do with the tokens that the lexer keeps, or it runs the automaton
once. -/
inductive Effect (l : Lexer) : LexerAnswer → Lexer → Prop where
  | kept {answer : LexerAnswer} {l' : Lexer} (hcursor : l'.cursor = l.cursor)
      (hkeeps : ∀ t, l'.Keeps t → l.Keeps t) (hanswer : ∀ t, answer = .token (some t) → l.Keeps t)
      (hfine : ∀ e, answer ≠ .lexical e) : Effect l answer l'
  | cut {t : Token} {l' : Lexer} (hscan : l.cursor.scan = (.token t, l'.cursor))
      (hkeeps : ∀ u, l'.Keeps u → u = t) : Effect l (.token (some t)) l'
  | ended {st : LexState} {l' : Lexer} (hscan : l.cursor.scan = (.ended st, l'.cursor))
      (hkeeps : ∀ u, ¬l'.Keeps u) : Effect l (.token none) l'
  | failed {e : LexError} {l' : Lexer} (hscan : l.cursor.scan = (.failed e, l'.cursor))
      (hkeeps : ∀ u, l'.Keeps u → l.Keeps u) : Effect l (.lexical e) l'

variable {source : List Char} {l l' : Lexer} {t : Token} {answer : LexerAnswer}

/-- Taking the next token and looking at it run the automaton in the same way; they differ in where
the token is kept. -/
theorem effect_of_takes (l : Lexer) {call : LexerCall} (hcall : call = .next ∨ call = .peek) :
    Effect l (l.answer call) (l.after call) := by
  obtain ⟨cursor, last, pushback, poisoned⟩ := l
  cases pushback with
  | some t =>
    rcases hcall with rfl | rfl <;> refine .kept rfl ?_ ?_ ?_ <;>
      simp [Lexer.answer, after, Lexer.next, Lexer.peek, Keeps, LexerAnswer.ofResult]
  | none =>
    rcases hscan : cursor.scan with ⟨s, c⟩
    cases s with
    | token t =>
      rcases hcall with rfl | rfl <;>
        simp only [Lexer.answer, after, Lexer.next, Lexer.peek, Lexer.scan, hscan,
          LexerAnswer.ofResult]
      all_goals exact .cut hscan (by simp [Keeps, eq_comm])
    | ended st =>
      rcases hcall with rfl | rfl <;>
        simp only [Lexer.answer, after, Lexer.next, Lexer.peek, Lexer.scan, hscan,
          LexerAnswer.ofResult]
      all_goals exact .ended hscan (by simp [Keeps])
    | failed e =>
      rcases hcall with rfl | rfl <;>
        simp only [Lexer.answer, after, Lexer.next, Lexer.peek, Lexer.scan, hscan,
          LexerAnswer.ofResult]
      all_goals exact .failed hscan (by simp [Keeps])

theorem effect_retract (l : Lexer) : Effect l (l.answer .retract) (l.after .retract) := by
  by_cases h : l.Offers
  · obtain ⟨t, hlast⟩ := Option.ne_none_iff_exists'.mp h.2
    have hafter : l.after .retract = ⟨l.cursor, none, some t, l.poisoned⟩ := by
      simp only [after, Lexer.retract, h.1, hlast]
    rw [retract_of_offers h, hafter]
    refine .kept rfl ?_ ?_ ?_ <;> simp [Keeps, hlast]
  · obtain ⟨⟨error, hanswer⟩, hafter⟩ := retract_of_not_offers h
    rw [hanswer, hafter]
    refine .kept rfl ?_ ?_ ?_ <;> simp

theorem effect (l : Lexer) (call : LexerCall) : Effect l (l.answer call) (l.after call) := by
  cases call with
  | next => exact l.effect_of_takes (.inl rfl)
  | peek => exact l.effect_of_takes (.inr rfl)
  | retract => exact l.effect_retract
  | item =>
    cases hpoisoned : l.poisoned with
    | true =>
      obtain ⟨hafter, hanswer⟩ := item_of_poisoned hpoisoned
      rw [hafter, hanswer]
      refine .kept rfl ?_ ?_ ?_ <;> simp
    | false =>
      obtain ⟨hanswer, hafter, -⟩ := item_of_sound hpoisoned
      rw [hanswer, hafter]
      exact l.effect_of_takes (.inl rfl)

/-! ## 5. Any calls -/

/-- The cursor stands between two characters of the source, with a space behind it. The tokens that
the lexer keeps have been cut out of the source in front of the cursor. -/
structure Placed (source : List Char) (l : Lexer) : Prop where
  cursor : l.cursor.At (source ++ [' '])
  keeps : ∀ t, l.Keeps t → t.StandsIn source ∧ t.span.offset + t.span.len ≤ l.cursor.offset

theorem placed_ofSource (source : String) : (ofSource source).Placed source.toList where
  cursor := by simp [ofSource, Cursor.At, dropBytes?]
  keeps t ht := by simp [ofSource, Keeps] at ht

theorem Placed.effect (h : l.Placed source) (heffect : Effect l answer l') :
    l'.Placed source ∧ l.cursor.offset ≤ l'.cursor.offset ∧
      ∀ t, answer = .token (some t) → t.StandsIn source := by
  obtain ⟨hat, hle⟩ := h.cursor.scan
  cases heffect with
  | kept hcursor hkeeps hanswer =>
    rw [← hcursor]
    refine ⟨⟨?_, fun t ht => ?_⟩, Nat.le_refl _, fun t ht => (h.keeps t (hanswer t ht)).1⟩
    · rw [hcursor]
      exact h.cursor
    · rw [hcursor]
      exact h.keeps t (hkeeps t ht)
  | @cut t _ hscan hkeeps =>
    obtain ⟨hstands, hstop⟩ := h.cursor.scan_token hscan
    rw [hscan] at hat hle
    refine ⟨⟨hat, fun u hu => ?_⟩, hle, ?_⟩
    · rw [hkeeps u hu]
      exact ⟨hstands, Nat.le_of_eq hstop⟩
    · rintro u ⟨⟩
      exact hstands
  | ended hscan hkeeps =>
    rw [hscan] at hat hle
    exact ⟨⟨hat, fun u hu => absurd hu (hkeeps u)⟩, hle, fun u hu => by cases hu⟩
  | failed hscan hkeeps =>
    rw [hscan] at hat hle
    refine ⟨⟨hat, fun u hu => ?_⟩, hle, fun u hu => by cases hu⟩
    obtain ⟨hstands, hstop⟩ := h.keeps u (hkeeps u hu)
    exact ⟨hstands, Nat.le_trans hstop hle⟩

theorem Placed.afterAll (h : l.Placed source) (calls : List LexerCall) :
    (l.afterAll calls).Placed source ∧ l.cursor.offset ≤ (l.afterAll calls).cursor.offset := by
  induction calls generalizing l with
  | nil => exact ⟨h, Nat.le_refl _⟩
  | cons call calls ih =>
    obtain ⟨hplaced, hle, -⟩ := h.effect (l.effect call)
    obtain ⟨hlast, hmore⟩ := ih hplaced
    exact ⟨hlast, Nat.le_trans hle hmore⟩

/-- Every token that a lexer is made to hand out stands in the source. -/
theorem Placed.answers (h : l.Placed source) {calls : List LexerCall}
    (ht : .token (some t) ∈ l.answers calls) : t.StandsIn source := by
  induction calls generalizing l with
  | nil => cases ht
  | cons call calls ih =>
    obtain ⟨hplaced, -, hanswer⟩ := h.effect (l.effect call)
    rw [Lexer.answers] at ht
    rcases List.mem_cons.mp ht with heq | ht
    · exact hanswer t heq.symm
    · exact ih hplaced ht

end Lexer

end ThreeAddress
