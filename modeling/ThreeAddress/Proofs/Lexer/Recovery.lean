import ThreeAddress.Proofs.Lexer.Positions

/-!
# A lexer after lexical errors

Whoever ignores a lexical error and goes on gets tokens from the middle of a lexeme, but nothing
worse. The cursor goes on standing between characters and never goes back, and the runs of the
automaton keep passing their checks (`Proofs.Lexer.Positions`). The sequence of items has ended for
good.

One error is not to be got past. A character that begins no lexeme is refused where the next run
would start (`Cursor.scan_of_unexpected`), so that run comes to nothing either. The lexer is stuck
(`Lexer.Stuck`): it has at most the token to hand out that it kept from before, and otherwise
repeats the error.
-/

namespace ThreeAddress

open Text

/-! ## 1. A character that begins no lexeme -/

/-- Only between lexemes is a character unexpected. -/
theorem LexState.eq_initial_of_unexpected {st : LexState} {c : Char}
    (h : st.step c = .fail .unexpectedChar) : st = .initial := by
  cases st with
  | initial => rfl
  | _ =>
    rw [step] at h
    repeat' split at h
    all_goals simp at h

namespace Cursor

theorem scan_of_unexpected_scanFrom {cs : List Char} {state : LexState} {start offset : Nat}
    {lexeme : String} {e : LexError} {c : Cursor}
    (h : scanFrom state start lexeme offset cs = (.failed e, c))
    (hflaw : e.flaw = .unexpectedChar) : c.scan = (.failed e, c) ∧ e.span.offset = c.offset := by
  induction cs generalizing state start lexeme offset with
  | nil => cases h
  | cons d cs ih =>
    rw [scanFrom] at h
    split at h
    · exact ih h
    · exact ih h
    · cases h
    · cases h
    · rename_i flaw hs
      cases h
      obtain rfl : flaw = .unexpectedChar := hflaw
      obtain rfl := LexState.eq_initial_of_unexpected hs
      exact ⟨by rw [scan, scanFrom, hs], rfl⟩

/-- The next run starts at the character and is refused again. -/
theorem scan_of_unexpected {c c' : Cursor} {e : LexError} (h : c.scan = (.failed e, c'))
    (hflaw : e.flaw = .unexpectedChar) : c'.scan = (.failed e, c') ∧ e.span.offset = c'.offset :=
  scan_of_unexpected_scanFrom h hflaw

end Cursor

/-! ## 2. A lexer that is stuck -/

namespace Lexer

variable {source : List Char} {l l' : Lexer} {e : LexError} {answer : LexerAnswer}

/-- The automaton fails and does not move, and what the lexer keeps starts in front of the error. -/
structure Stuck (e : LexError) (l : Lexer) : Prop where
  scan : l.cursor.scan = (.failed e, l.cursor)
  keeps : ∀ t, l.Keeps t → t.span.offset < e.span.offset

theorem Placed.stuck (h : l.Placed source) (heffect : Effect l (.lexical e) l')
    (hflaw : e.flaw = .unexpectedChar) : l'.Stuck e := by
  obtain ⟨hplaced, -⟩ := h.effect heffect
  have hscan : l.cursor.scan = (.failed e, l'.cursor) := by
    cases heffect with
    | kept _ _ _ hfine => exact absurd rfl (hfine e)
    | failed hscan => exact hscan
  obtain ⟨hagain, hoffset⟩ := Cursor.scan_of_unexpected hscan hflaw
  refine ⟨hagain, fun t ht => ?_⟩
  obtain ⟨hstands, hstop⟩ := hplaced.keeps t ht
  have hpos := hstands.len_pos
  omega

/-- A lexer that is stuck stays so, and it hands out at most what it keeps. -/
theorem Stuck.effect (h : l.Stuck e) (heffect : Effect l answer l') :
    l'.Stuck e ∧ ∀ t, answer = .token (some t) → t.span.offset < e.span.offset := by
  have hscan := h.scan
  cases heffect with
  | kept hcursor hkeeps hanswer =>
    refine ⟨⟨?_, fun t ht => h.keeps t (hkeeps t ht)⟩, fun t ht => h.keeps t (hanswer t ht)⟩
    rw [hcursor]
    exact hscan
  | cut hcut =>
    rw [hcut] at hscan
    cases hscan
  | ended hended =>
    rw [hended] at hscan
    cases hscan
  | @failed e' _ hfailed hkeeps =>
    have hsame := hscan.symm.trans hfailed
    obtain ⟨-, hcursor⟩ := Prod.mk.inj hsame
    refine ⟨⟨?_, fun t ht => h.keeps t (hkeeps t ht)⟩, fun t ht => by cases ht⟩
    rw [← hcursor]
    exact hscan

theorem Stuck.repeats (h : l.Stuck e) (hpush : l.pushback = none) :
    l.answer .next = .lexical e ∧ l.answer .peek = .lexical e := by
  simp [Lexer.answer, Lexer.next, Lexer.peek, hpush, Lexer.scan, h.scan, LexerAnswer.ofResult]

theorem Placed.stuck_afterAll (h : l.Placed source) (hflaw : e.flaw = .unexpectedChar)
    {calls : List LexerCall} (he : .lexical e ∈ l.answers calls) : (l.afterAll calls).Stuck e := by
  induction calls using List.reverseRecOn with
  | nil => cases he
  | append_singleton calls call ih =>
    have heffect := (l.afterAll calls).effect call
    rw [answers_concat, List.mem_append, List.mem_singleton] at he
    rw [afterAll_concat]
    rcases he with he | he
    · exact ((ih he).effect heffect).1
    · rw [← he] at heffect
      exact (h.afterAll calls).1.stuck heffect hflaw

/-- **A lexer stays sound whatever has gone wrong before.** After any calls the cursor stands
between two characters of the source and its space, no further calls take it back, and the next run
of the automaton passes all checks, so it is between lexemes if the characters run out. After a
lexical error there are no more items. After an unexpected character, what can be handed out starts
in front of it, and every run of the automaton meets the same error again. -/
theorem sound_after_errors (source : String) (calls : List LexerCall) :
    dropBytes? ((ofSource source).afterAll calls).cursor.offset (source.toList ++ [' ']) =
      some ((ofSource source).afterAll calls).cursor.rest ∧
    (∀ more, ((ofSource source).afterAll calls).cursor.offset ≤
      ((ofSource source).afterAll (calls ++ more)).cursor.offset) ∧
    Checked (source.toList ++ [' ']) .initial ((ofSource source).afterAll calls).cursor.offset ""
      ((ofSource source).afterAll calls).cursor.offset
      ((ofSource source).afterAll calls).cursor.scan.1
      ((ofSource source).afterAll calls).cursor.scan.2.offset ∧
    (∀ st, ((ofSource source).afterAll calls).cursor.scan.1 = .ended st → st = .initial) ∧
    ∀ e, .lexical e ∈ (ofSource source).answers calls →
      ((ofSource source).afterAll calls).answer .item = .token none ∧
      (e.flaw = .unexpectedChar →
        (∀ call t, ((ofSource source).afterAll calls).answer call = .token (some t) →
          t.span.offset < e.span.offset) ∧
        (((ofSource source).afterAll calls).pushback = none →
          ((ofSource source).afterAll calls).answer .next = .lexical e ∧
          ((ofSource source).afterAll calls).answer .peek = .lexical e)) := by
  have hstart := placed_ofSource source
  obtain ⟨hplaced, -⟩ := hstart.afterAll calls
  refine ⟨hplaced.cursor, fun more => ?_, hplaced.cursor.checked_scan,
    fun st => ended_initial source calls, fun e he => ⟨?_, fun hflaw => ?_⟩⟩
  · have hmore : (ofSource source).afterAll (calls ++ more) =
        ((ofSource source).afterAll calls).afterAll more := List.foldl_append
    rw [hmore]
    exact (hplaced.afterAll more).2
  · have hpoisoned := (poisoned_afterAll_iff (l := ofSource source) rfl calls).mpr ⟨e, he⟩
    exact (item_of_poisoned hpoisoned).2
  · have hstuck := hstart.stuck_afterAll hflaw he
    exact ⟨fun call => (hstuck.effect (effect _ call)).2, hstuck.repeats⟩

/-- A number is cut short by a letter, the letter is handed out as a token of its own, and then the
hash sign is in the way. The token can still be given back and taken again. -/
theorem sound_after_errors_hash :
    (ofSource "1a # b").answers [.next, .next, .next, .retract, .next] =
      [.lexical ⟨.letterAfterNumber, 'a', ⟨1, 1⟩⟩, .token (some ⟨⟨1, 1⟩, .identifier, "a"⟩),
        .lexical ⟨.unexpectedChar, '#', ⟨3, 1⟩⟩, .retracted,
        .token (some ⟨⟨1, 1⟩, .identifier, "a"⟩)] ∧
    ((ofSource "1a # b").afterAll [.next, .next, .next, .retract, .next]).answer .item =
      .token none ∧
    ((ofSource "1a # b").afterAll [.next, .next, .next, .retract, .next]).answer .peek =
      .lexical ⟨.unexpectedChar, '#', ⟨3, 1⟩⟩ := by
  have hanswers : (ofSource "1a # b").answers [.next, .next, .next, .retract, .next] =
      [.lexical ⟨.letterAfterNumber, 'a', ⟨1, 1⟩⟩, .token (some ⟨⟨1, 1⟩, .identifier, "a"⟩),
        .lexical ⟨.unexpectedChar, '#', ⟨3, 1⟩⟩, .retracted,
        .token (some ⟨⟨1, 1⟩, .identifier, "a"⟩)] := by decide +kernel
  obtain ⟨-, -, -, -, herrors⟩ := sound_after_errors "1a # b" [.next, .next, .next, .retract, .next]
  obtain ⟨hitem, hstuck⟩ := herrors ⟨.unexpectedChar, '#', ⟨3, 1⟩⟩ (by rw [hanswers]; simp)
  obtain ⟨-, hrepeats⟩ := hstuck rfl
  exact ⟨hanswers, hitem, (hrepeats (by decide +kernel)).2⟩

end Lexer

end ThreeAddress
