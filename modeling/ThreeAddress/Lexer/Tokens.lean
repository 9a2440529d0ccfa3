import ThreeAddress.Lexer.Basic

/-!
# The tokens of a source

`Lexer.tokens` collects the items of a lexer, up to the end of the source or the first lexical
error. It ends because every token takes at least one character: the automaton only completes a
lexeme without the current character after it has shifted another one.
-/

namespace ThreeAddress

namespace LexState

/-- The first character of a lexeme belongs to it. -/
theorem stepInitial_ne_emit_false (c : Char) (kind : TokenKind) :
    stepInitial c ≠ .emit kind false := by
  unfold stepInitial
  repeat' split
  all_goals simp

end LexState

namespace Cursor

/-- The automaton never moves backwards. -/
theorem length_rest_scanFrom_le (state : LexState) (start : Nat) (lexeme : String)
    (offset : Nat) (cs : List Char) :
    (scanFrom state start lexeme offset cs).2.rest.length ≤ cs.length := by
  induction cs generalizing state start lexeme offset with
  | nil => simp [scanFrom]
  | cons c cs ih =>
    unfold scanFrom
    split
    · exact Nat.le_succ_of_le (ih ..)
    · exact Nat.le_succ_of_le (ih ..)
    · simp
    · simp
    · simp

/-- A token takes at least one character. -/
theorem length_rest_scan_lt (cursor : Cursor) (token : Token)
    (h : cursor.scan.1 = .token token) : cursor.scan.2.rest.length < cursor.rest.length := by
  suffices ∀ (cs : List Char) (start offset : Nat) (lexeme : String),
      (scanFrom .initial start lexeme offset cs).1 = .token token →
        (scanFrom .initial start lexeme offset cs).2.rest.length < cs.length from
    this _ _ _ _ h
  intro cs
  induction cs with
  | nil => intro _ _ _ h; simp [scanFrom] at h
  | cons c cs ih =>
    intro start offset lexeme h
    unfold scanFrom at h ⊢
    split at h
    · exact Nat.lt_succ_of_lt (ih _ _ _ h)
    · exact Nat.lt_succ_of_le (length_rest_scanFrom_le ..)
    · simp
    · next kind hstep => exact absurd hstep (LexState.stepInitial_ne_emit_false c kind)
    · cases h

end Cursor

namespace Lexer

/-- The work a lexer has left: the characters before it, and the token that waits. -/
def work (l : Lexer) : Nat :=
  l.cursor.rest.length + if l.pushback.isSome then 1 else 0

/-- An item that is a token leaves less work. -/
theorem work_item_lt {l : Lexer} {t : Token} (h : l.item.answer = some (.ok t)) :
    l.item.next.work < l.work := by
  obtain ⟨cursor, last, pushback, poisoned⟩ := l
  cases poisoned with
  | true => simp [item] at h
  | false =>
    cases pushback with
    | some t => simp [item, next, work]
    | none =>
      rcases hs : cursor.scan with ⟨s, c⟩
      cases s with
      | token u =>
        have := Cursor.length_rest_scan_lt cursor u (by rw [hs])
        simp only [hs] at this
        simpa [item, next, scan, hs, work] using this
      | ended st => simp [item, next, scan, hs] at h
      | failed e => simp [item, next, scan, hs] at h

/-- Collects the items of a lexer. -/
def tokens (l : Lexer) : Step Lexer (Except LexError (List Token)) :=
  match _h : l.item with
  | ⟨none, l', events⟩ => ⟨.ok [], l', events⟩
  | ⟨some (.error e), l', events⟩ => ⟨.error e, l', events⟩
  | ⟨some (.ok t), l', events⟩ =>
    let rest := tokens l'
    ⟨rest.answer.map (t :: ·), rest.next, events ++ rest.events⟩
termination_by l.work
decreasing_by
  have := work_item_lt (l := l) (t := t) (by rw [_h])
  simpa [_h] using this

end Lexer

end ThreeAddress
