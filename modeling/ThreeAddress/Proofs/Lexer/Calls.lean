import ThreeAddress.Proofs.Lexer.Stream

/-!
# Calls on a lexer, in any order

Whoever works a lexer has four calls: `next`, `item`, `peek` and `retract`. Nothing makes the caller
keep to an order, or stop after a lexical error. What holds of a lexer all the same is said here for
any list of calls.

The one thing that a call does to the cursor is to run the automaton from it, or to leave it alone
(`Lexer.cursor_after`). So a property of cursors that a run keeps is a property of every lexer that
calls lead to. The property here is `Cursor.Guarded`: the space behind the source has not been
passed, or nothing is left at all. It is why a lexeme is always complete when the characters run
out.

The plainest list of calls is `next` again and again, and what it gives is the stream of the lexer
(`Lexer.yields_stream`).
-/

namespace ThreeAddress

/-! ## 1. Calls -/

/-- A call on a lexer. -/
inductive LexerCall where
  | next
  | item
  | peek
  | retract
deriving Repr, DecidableEq

namespace Lexer

/-- The lexer after a call. -/
def after (l : Lexer) : LexerCall → Lexer
  | .next => l.next.next
  | .item => l.item.next
  | .peek => l.peek.next
  | .retract => l.retract.next

/-- The lexer after some calls. -/
def afterAll (l : Lexer) (calls : List LexerCall) : Lexer :=
  calls.foldl after l

theorem cursor_scan (l : Lexer) : l.scan.next.cursor = l.cursor.scan.2 := by
  unfold scan
  split <;> simp_all

theorem cursor_next (l : Lexer) :
    l.next.next.cursor = l.cursor ∨ l.next.next.cursor = l.cursor.scan.2 := by
  have hscan := l.cursor_scan
  unfold next
  split
  · exact .inl rfl
  · split <;> simp_all

theorem cursor_peek (l : Lexer) :
    l.peek.next.cursor = l.cursor ∨ l.peek.next.cursor = l.cursor.scan.2 := by
  have hscan := l.cursor_scan
  unfold peek
  split
  · exact .inl rfl
  · split <;> simp_all

theorem cursor_item (l : Lexer) :
    l.item.next.cursor = l.cursor ∨ l.item.next.cursor = l.cursor.scan.2 := by
  have hnext := l.cursor_next
  unfold item
  split
  · exact .inl rfl
  · split <;> simp_all

theorem cursor_retract (l : Lexer) : l.retract.next.cursor = l.cursor := by
  unfold retract
  split <;> rfl

/-- What a call does to the cursor. -/
theorem cursor_after (l : Lexer) (call : LexerCall) :
    (l.after call).cursor = l.cursor ∨ (l.after call).cursor = l.cursor.scan.2 := by
  cases call with
  | next => exact l.cursor_next
  | item => exact l.cursor_item
  | peek => exact l.cursor_peek
  | retract => exact .inl l.cursor_retract

/-- What the automaton keeps is kept by all calls. -/
theorem cursor_afterAll {P : Cursor → Prop} (hscan : ∀ c, P c → P c.scan.2) {l : Lexer}
    (h : P l.cursor) (calls : List LexerCall) : P (l.afterAll calls).cursor := by
  induction calls generalizing l with
  | nil => exact h
  | cons call calls ih =>
    apply ih
    rcases l.cursor_after call with hc | hc
    · rw [hc]
      exact h
    · rw [hc]
      exact hscan _ h

end Lexer

/-! ## 2. The space behind the source -/

/-- Only between lexemes is anything skipped. -/
theorem LexState.eq_initial_of_skip {st : LexState} {c : Char} (h : st.step c = .skip) :
    st = .initial := by
  cases st with
  | initial => rfl
  | _ =>
    rw [step] at h
    repeat' split at h
    all_goals simp at h

namespace Cursor

/-- The space behind the source is still to come, or everything has been read. -/
def Guarded (c : Cursor) : Prop :=
  c.rest = [] ∨ ∃ cs, c.rest = cs ++ [' ']

/-- A run from before the space leaves the cursor before it or at the very end, and it ends between
lexemes if it ends for want of characters. -/
theorem guarded_scanFrom (cs : List Char) (state : LexState) (start offset : Nat)
    (lexeme : String) :
    (scanFrom state start lexeme offset (cs ++ [' '])).2.Guarded ∧
      ∀ st, (scanFrom state start lexeme offset (cs ++ [' '])).1 = .ended st → st = .initial := by
  induction cs generalizing state start offset lexeme with
  | nil =>
    have hspace := state.takes_step_space
    rw [List.nil_append, scanFrom]
    split
    · -- the space is skipped, which happens between lexemes only
      rename_i hskip
      refine ⟨.inl rfl, fun st hst => ?_⟩
      cases hst
      exact LexState.eq_initial_of_skip hskip
    · rename_i hs; rw [hs] at hspace; cases hspace
    · rename_i hs; rw [hs] at hspace; cases hspace
    · exact ⟨.inr ⟨[], rfl⟩, fun st hst => by cases hst⟩
    · exact ⟨.inr ⟨[], rfl⟩, fun st hst => by cases hst⟩
  | cons c cs ih =>
    rw [List.cons_append, scanFrom]
    split
    · exact ih ..
    · exact ih ..
    · exact ⟨.inr ⟨cs, rfl⟩, fun st hst => by cases hst⟩
    · exact ⟨.inr ⟨c :: cs, rfl⟩, fun st hst => by cases hst⟩
    · exact ⟨.inr ⟨c :: cs, rfl⟩, fun st hst => by cases hst⟩

theorem Guarded.scan {c : Cursor} (h : c.Guarded) :
    c.scan.2.Guarded ∧ ∀ st, c.scan.1 = .ended st → st = .initial := by
  unfold Cursor.scan
  rcases h with hrest | ⟨cs, hrest⟩
  · rw [hrest]
    refine ⟨.inl rfl, fun st hst => ?_⟩
    cases hst
    rfl
  · rw [hrest]
    exact guarded_scanFrom ..

end Cursor

/-- **Whatever has been asked of a lexer, the automaton is between lexemes when the characters run
out.** -/
theorem Lexer.ended_initial (source : String) (calls : List LexerCall) {st : LexState}
    (h : ((Lexer.ofSource source).afterAll calls).cursor.scan.1 = .ended st) : st = .initial := by
  have hguarded : ((Lexer.ofSource source).afterAll calls).cursor.Guarded := by
    apply cursor_afterAll (fun c hc => hc.scan.1)
    exact .inr ⟨source.toList, rfl⟩
  exact hguarded.scan.2 st h

/-! ## 3. Calling `next` again and again -/

/-- What a lexer hands out if it is only ever asked for the next token: tokens up to the end of the
source, or up to the first lexical error. -/
inductive Lexer.Yields : Lexer → Stream → Prop where
  | ended {l : Lexer} (h : l.next.answer = .ok none) : Yields l ⟨[], none⟩
  | failed {l : Lexer} {e : LexError} (h : l.next.answer = .error e) : Yields l ⟨[], some e⟩
  | token {l : Lexer} {t : Token} {x : Stream} (h : l.next.answer = .ok (some t))
      (hmore : Yields l.next.next x) : Yields l (x.cons t)

theorem Lexer.yields_stream (l : Lexer) : l.Yields l.stream := by
  rcases h : l.stream with ⟨ts, error⟩
  induction ts generalizing l with
  | nil =>
    cases error with
    | none =>
      obtain ⟨l', hnext, -⟩ := next_of_end h
      exact .ended (by rw [hnext])
    | some e =>
      obtain ⟨l', hnext⟩ := next_of_error h
      exact .failed (by rw [hnext])
  | cons t ts ih =>
    obtain ⟨l', events, hnext, hstream, -⟩ := next_of_cons h
    refine Yields.token (x := ⟨ts, error⟩) (by rw [hnext]) ?_
    rw [hnext]
    exact ih l' hstream

end ThreeAddress
