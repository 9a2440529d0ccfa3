import ThreeAddress.Proofs.Lexer.Stream

/-!
# What lexemes look like

The kind of a token says how its text is spelled (`TokenKind.Spells`). What the automaton has read
of a lexeme in each of its states is a beginning of such a spelling (`LexState.Holds`). Shifting a
character keeps this (`LexState.Holds.shift`), and a lexeme that is complete is spelled as its kind
requires (`LexState.Holds.emit`), so all tokens of a source are (`sourceStream_spells`).
-/

namespace ThreeAddress

/-! ## 1. Spellings -/

namespace Text

/-- One or more digits. -/
def IsNumber (cs : List Char) : Prop :=
  cs ≠ [] ∧ ∀ c ∈ cs, c.isDigit = true

/-- A letter, then letters and digits. -/
def IsWord (cs : List Char) : Prop :=
  (∃ c ∈ cs.head?, isAlphabetic c = true) ∧ ∀ c ∈ cs, isAlphabetic c = true ∨ c.isDigit = true

theorem isNumber_singleton {c : Char} (h : c.isDigit = true) : IsNumber [c] := by
  simp [IsNumber, h]

theorem IsNumber.concat {cs : List Char} {c : Char} (h : IsNumber cs) (hc : c.isDigit = true) :
    IsNumber (cs ++ [c]) := by
  refine ⟨by simp, fun d hd => ?_⟩
  rcases List.mem_append.mp hd with hd | hd
  · exact h.2 d hd
  · rwa [List.mem_singleton.mp hd]

theorem isNumber_toString (n : Nat) : IsNumber (toString n).toList := by
  rw [Nat.toString_eq_repr, Nat.toList_repr]
  exact ⟨Nat.toDigits_ne_nil, fun c hc => Nat.isDigit_of_mem_toDigits (by decide) (by decide) hc⟩

theorem isWord_singleton {c : Char} (h : isAlphabetic c = true) : IsWord [c] := by
  simp [IsWord, h]

theorem IsWord.concat {cs : List Char} {c : Char} (h : IsWord cs)
    (hc : isAlphabetic c = true ∨ c.isDigit = true) : IsWord (cs ++ [c]) := by
  obtain ⟨⟨first, hfirst, hletter⟩, hall⟩ := h
  refine ⟨⟨first, by simp [List.head?_append, Option.mem_def.mp hfirst], hletter⟩, fun d hd => ?_⟩
  rcases List.mem_append.mp hd with hd | hd
  · exact hall d hd
  · rwa [List.mem_singleton.mp hd]

end Text

/-- How the lexemes of a kind are spelled. The equals sign may be doubled, although no relation is
written that way. -/
def TokenKind.Spells (text : String) : TokenKind → Prop
  | integer => Text.IsNumber text.toList
  | float => ∃ a b, text.toList = a ++ '.' :: b ∧ Text.IsNumber a ∧ Text.IsNumber b
  | identifier => Text.IsWord text.toList ∧ Keyword.ofText? text = none
  | keyword => (Keyword.ofText? text).isSome = true
  | operator => text ∈ ["+", "-", "*", "/"]
  | attributor => text = ":="
  | typeDeclaration => text = ":"
  | symbol => text ∈ ["(", ")", ",", ".", "$"]
  | semicolon => text = ";"
  | relational => text ∈ ["=", "<>", ">=", "<=", ">", "<", "=="]

/-- Only one kind is written `:=`. -/
theorem TokenKind.Spells.eq_attributor {kind : TokenKind} (h : kind.Spells ":=") :
    kind = .attributor := by
  have hchars : ":=".toList = [':', '='] := by decide
  cases kind with
  | integer => exact absurd (h.2 ':' (by simp [hchars])) (by decide)
  | float =>
    obtain ⟨a, b, hab, -⟩ := h
    have hpoint : '.' ∈ ":=".toList := by simp [hab]
    simp [hchars] at hpoint
  | identifier =>
    obtain ⟨⟨⟨c, hc, hletter⟩, -⟩, -⟩ := h
    rw [hchars] at hc
    cases hc
    exact absurd hletter (by decide +kernel)
  | attributor => rfl
  | keyword =>
    have hnone : Keyword.ofText? ":=" = none := by decide +kernel
    simp [Spells, hnone] at h
  | operator | symbol | relational | typeDeclaration | semicolon => simp [Spells] at h

/-! ## 2. The automaton -/

/-- What the automaton has read of a lexeme. -/
def LexState.Holds (text : String) : LexState → Prop
  | initial => text = ""
  | word => Text.IsWord text.toList
  | number => Text.IsNumber text.toList
  | point => ∃ a, text.toList = a ++ ['.'] ∧ Text.IsNumber a
  | fraction => ∃ a b, text.toList = a ++ '.' :: b ∧ Text.IsNumber a ∧ Text.IsNumber b
  | colon => text = ":"
  | relation first => text = first.toString ∧ first ∈ ['=', '<', '>']

namespace LexState

variable {st st' : LexState} {c : Char} {text : String} {kind : TokenKind} {consume : Bool}

/-- A character that is shifted. -/
theorem Holds.shift (h : st.Holds text) (hs : st.step c = .shift st') :
    st'.Holds (text.push c) := by
  cases st with
  | initial =>
    obtain rfl : text = "" := h
    rw [step, stepInitial] at hs
    repeat' split at hs
    all_goals cases hs
    -- what is left: a letter, a digit, a colon, and a character of a relation
    · rename_i hc
      simpa [Holds] using Text.isWord_singleton hc
    · rename_i hc
      simpa [Holds] using Text.isNumber_singleton hc
    · rename_i hc
      rw [hc]
      rfl
    · rename_i hc
      exact ⟨rfl, by simpa using hc⟩
  | word =>
    rw [step] at hs
    split at hs <;> cases hs
    rename_i hc
    rw [Holds, String.toList_push]
    exact Text.IsWord.concat h (by simpa using hc)
  | number =>
    rw [step] at hs
    repeat' split at hs
    all_goals cases hs
    · rw [Holds, String.toList_push]
      exact Text.IsNumber.concat h ‹_›
    · rename_i hc
      exact ⟨text.toList, by rw [String.toList_push, hc], h⟩
  | point =>
    rw [step] at hs
    split at hs <;> cases hs
    obtain ⟨a, ha, hnumber⟩ := h
    exact ⟨a, [c], by rw [String.toList_push, ha, List.append_assoc]; rfl, hnumber,
      Text.isNumber_singleton ‹_›⟩
  | fraction =>
    rw [step] at hs
    repeat' split at hs
    all_goals cases hs
    obtain ⟨a, b, hab, hnumber, hfraction⟩ := h
    exact ⟨a, b ++ [c], by rw [String.toList_push, hab, List.append_assoc]; rfl, hnumber,
      hfraction.concat ‹_›⟩
  | colon =>
    rw [step] at hs
    repeat' split at hs
    all_goals cases hs
  | relation first =>
    rw [step] at hs
    repeat' split at hs
    all_goals cases hs

/-- A lexeme that is complete. Whether a word is reserved has still to be looked up. -/
theorem Holds.emit (h : st.Holds text) (hs : st.step c = .emit kind consume) :
    (kind = .identifier ∧ Text.IsWord (if consume then text.push c else text).toList) ∨
      (kind ≠ .identifier ∧ kind.Spells (if consume then text.push c else text)) := by
  cases st with
  | initial =>
    obtain rfl : text = "" := h
    rw [step, stepInitial] at hs
    repeat' split at hs
    all_goals cases hs
    -- what is left: an operator, a mark and a semicolon
    · rename_i hc
      rcases hc with rfl | rfl | rfl | rfl <;> exact .inr ⟨by decide, by simp [TokenKind.Spells]⟩
    · rename_i hc
      rcases hc with rfl | rfl | rfl | rfl | rfl <;>
        exact .inr ⟨by decide, by simp [TokenKind.Spells]⟩
    · rename_i hc
      rw [hc]
      exact .inr ⟨by decide, rfl⟩
  | word =>
    rw [step] at hs
    split at hs <;> cases hs
    exact .inl ⟨rfl, h⟩
  | number =>
    rw [step] at hs
    repeat' split at hs
    all_goals cases hs
    exact .inr ⟨by decide, h⟩
  | point =>
    rw [step] at hs
    split at hs <;> cases hs
  | fraction =>
    rw [step] at hs
    repeat' split at hs
    all_goals cases hs
    exact .inr ⟨by decide, h⟩
  | colon =>
    obtain rfl : text = ":" := h
    rw [step] at hs
    repeat' split at hs
    all_goals cases hs
    · rename_i hc
      rw [hc]
      exact .inr ⟨by decide, rfl⟩
    · exact .inr ⟨by decide, rfl⟩
  | relation first =>
    obtain ⟨rfl, hfirst⟩ := h
    simp only [List.mem_cons, List.not_mem_nil, or_false] at hfirst
    rw [step] at hs
    repeat' split at hs
    all_goals cases hs
    · rename_i hc
      subst hc
      rcases hfirst with rfl | rfl | rfl <;> exact .inr ⟨by decide, by simp [TokenKind.Spells]⟩
    · rename_i hc
      obtain ⟨rfl, rfl⟩ := hc
      exact .inr ⟨by decide, by simp [TokenKind.Spells]⟩
    · rcases hfirst with rfl | rfl | rfl <;> exact .inr ⟨by decide, by simp [TokenKind.Spells]⟩

end LexState

/-! ## 3. Tokens -/

/-- The token of a complete lexeme is spelled as its kind requires. -/
theorem Token.spells_ofLexeme {kind : TokenKind} {start stop : Nat} {text : String}
    (h : (kind = .identifier ∧ Text.IsWord text.toList) ∨
      (kind ≠ .identifier ∧ kind.Spells text)) :
    (ofLexeme kind start stop text).kind.Spells (ofLexeme kind start stop text).text := by
  rw [ofLexeme]
  rcases h with ⟨rfl, hword⟩ | ⟨hne, hspells⟩
  · cases hk : Keyword.ofText? text with
    | none => simpa [TokenKind.Spells, hk] using hword
    | some k => simp [TokenKind.Spells, hk]
  · simpa [hne] using hspells

namespace Cursor

theorem spells_scanFrom {cs : List Char} {state : LexState} {start offset : Nat} {text : String}
    {t : Token} {c : Cursor} (hl : state.Holds text)
    (h : scanFrom state start text offset cs = (.token t, c)) : t.kind.Spells t.text := by
  induction cs generalizing state start text offset with
  | nil => cases h
  | cons d cs ih =>
    rw [scanFrom] at h
    split at h
    · exact ih hl h
    · rename_i hs
      exact ih (hl.shift hs) h
    · rename_i hs
      have hspells := hl.emit hs
      simp only [if_true] at hspells
      cases h
      exact Token.spells_ofLexeme hspells
    · rename_i hs
      have hspells := hl.emit hs
      simp only [Bool.false_eq_true, if_false] at hspells
      cases h
      exact Token.spells_ofLexeme hspells
    · cases h

theorem spells_of_mem_stream {c : Cursor} {t : Token} (h : t ∈ c.stream.tokens) :
    t.kind.Spells t.text := by
  rcases hx : c.stream with ⟨ts, error⟩
  rw [hx] at h
  induction ts generalizing c with
  | nil => cases h
  | cons u ts ih =>
    obtain ⟨c', hs, hstream⟩ := scan_of_stream_cons hx
    rcases List.mem_cons.mp h with rfl | h
    · have hempty : LexState.initial.Holds "" := rfl
      exact spells_scanFrom hempty hs
    · exact ih h hstream

end Cursor

/-- **Every token of a source is spelled as its kind requires.** -/
theorem sourceStream_spells {source : String} {t : Token}
    (h : t ∈ (sourceStream source).tokens) : t.kind.Spells t.text :=
  Cursor.spells_of_mem_stream h

end ThreeAddress
