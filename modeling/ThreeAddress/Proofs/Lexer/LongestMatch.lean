import Mathlib.Data.Nat.Find
import ThreeAddress.Proofs.Lexer.Vocabulary
import ThreeAddress.Proofs.Text.Classes

/-!
# Lexing by longest match

A source can be cut into lexemes without an automaton. Skip white space; then take the longest
beginning of the text that is spelled like a lexeme of some kind; then go on behind it.
`LongestMatch` says this, and what is left to say is where it fails. A text is malformed
(`Malformed`) if a letter follows a number, if no digit follows the point after digits, if a digit
follows a colon, and if no lexeme begins it at all. The text is the source with one space behind it,
so that there is always a character that follows.

The automaton works on one character at a time and knows nothing of lengths. Still it finds the
longest lexeme (`LongestLexeme.cuts`) and refuses the same character (`Malformed.scan`). Both rest
on what the automaton has gathered when it is in a state (`LexState.Gathers`): a lexeme that cannot
be longer is complete at the next character, whichever it is.

That a longest lexeme exists has nothing to do with the automaton (`exists_longestMatch`). So
cutting by longest match always gives exactly one result, and that is the stream of the source.
-/

namespace ThreeAddress

open Text

/-! ## 1. Lexemes and malformed text -/

/-- `lexeme` is spelled like a lexeme of the kind, and no longer beginning of the text
`lexeme ++ rest` is a lexeme. -/
structure LongestLexeme (kind : TokenKind) (lexeme rest : List Char) : Prop where
  spells : kind.Spells (String.ofList lexeme)
  longest : ∀ (kind' : TokenKind) lexeme', lexeme' <+: lexeme ++ rest →
    kind'.Spells (String.ofList lexeme') → lexeme'.length ≤ lexeme.length

/-- The text begins with a malformed lexeme: `before` has been read, and the character after it does
not fit. -/
inductive Malformed (text : List Char) : Flaw → List Char → Char → Prop where
  | letterAfterNumber {number : List Char} {c : Char} (hbegins : number ++ [c] <+: text)
      (hnumber : TokenKind.integer.Spells (String.ofList number) ∨
        TokenKind.float.Spells (String.ofList number))
      (hletter : isAlphabetic c = true) : Malformed text .letterAfterNumber number c
  | expectedDigitAfterDot {digits : List Char} {c : Char}
      (hbegins : digits ++ ['.'] ++ [c] <+: text)
      (hdigits : IsNumber digits) (hother : c.isDigit = false) :
      Malformed text .expectedDigitAfterDot (digits ++ ['.']) c
  | digitAfterColon {c : Char} (hbegins : [':'] ++ [c] <+: text) (hdigit : c.isDigit = true) :
      Malformed text .digitAfterColon [':'] c
  | unexpectedChar {c : Char} (hbegins : [] ++ [c] <+: text) (hvisible : isWhiteSpace c = false)
      (hnone : ∀ (kind : TokenKind) lexeme,
        lexeme <+: text → ¬ kind.Spells (String.ofList lexeme)) :
      Malformed text .unexpectedChar [] c

def Token.ofChars (offset : Nat) (kind : TokenKind) (cs : List Char) : Token :=
  ⟨⟨offset, byteSize cs⟩, kind, String.ofList cs⟩

/-- What cutting a text by longest match gives, where the text starts at a byte offset. -/
inductive LongestMatch : Nat → List Char → Stream → Prop where
  | done {offset : Nat} : LongestMatch offset [] ⟨[], none⟩
  | blank {offset : Nat} {c : Char} {text : List Char} {x : Stream} (hblank : isWhiteSpace c = true)
      (hrest : LongestMatch (offset + c.utf8Size) text x) : LongestMatch offset (c :: text) x
  | lexeme {offset : Nat} {kind : TokenKind} {lexeme rest : List Char} {x : Stream}
      (hlongest : LongestLexeme kind lexeme rest)
      (hfine : ∀ flaw before c, ¬ Malformed (lexeme ++ rest) flaw before c)
      (hrest : LongestMatch (offset + byteSize lexeme) rest x) :
      LongestMatch offset (lexeme ++ rest) (x.cons (.ofChars offset kind lexeme))
  | malformed {offset : Nat} {text before : List Char} {flaw : Flaw} {c : Char}
      (hmalformed : Malformed text flaw before c) :
      LongestMatch offset text ⟨[], some ⟨flaw, c, ⟨offset + byteSize before, c.utf8Size⟩⟩⟩

theorem Malformed.begins_text {text before : List Char} {flaw : Flaw} {c : Char}
    (h : Malformed text flaw before c) : before ++ [c] <+: text := by
  cases h with
  | letterAfterNumber hbegins => exact hbegins
  | expectedDigitAfterDot hbegins => exact hbegins
  | digitAfterColon hbegins => exact hbegins
  | unexpectedChar hbegins => exact hbegins

/-! ### Spellings -/

theorem isWord_of_keyword {text : String} (h : TokenKind.keyword.Spells text) :
    IsWord text.toList := by
  obtain ⟨k, hk⟩ := Option.isSome_iff_exists.mp h
  have htext : k.text = text := by simpa using List.find?_some hk
  have hletters : k.text.toList.all isAlphabetic = true := by cases k <;> decide
  have hhead : ∃ c, k.text.toList.head? = some c := by cases k <;> exact ⟨_, rfl⟩
  obtain ⟨c, hc⟩ := hhead
  rw [List.all_eq_true] at hletters
  rw [← htext]
  exact ⟨⟨c, hc, hletters c (List.mem_of_mem_head? hc)⟩, fun d hd => .inl (hletters d hd)⟩

theorem exists_spells_of_isWord {cs : List Char} (h : IsWord cs) :
    ∃ kind : TokenKind, kind.Spells (String.ofList cs) := by
  cases hk : Keyword.ofText? (String.ofList cs) with
  | none => exact ⟨.identifier, by simpa using h, hk⟩
  | some k => exact ⟨.keyword, by simp [TokenKind.Spells, hk]⟩

theorem isWhiteSpace_of_isNumber {cs : List Char} (h : IsNumber cs) :
    ∀ c ∈ cs, isWhiteSpace c = false :=
  fun c hc => isWhiteSpace_of_isDigit (h.2 c hc)

theorem isWhiteSpace_of_isWord {cs : List Char} (h : IsWord cs) :
    ∀ c ∈ cs, isWhiteSpace c = false :=
  fun c hc => (h.2 c hc).elim isWhiteSpace_of_isAlphabetic isWhiteSpace_of_isDigit

/-- There is no white space in a lexeme. -/
theorem TokenKind.Spells.visible {text : String} {kind : TokenKind} (h : kind.Spells text) :
    ∀ c ∈ text.toList, isWhiteSpace c = false := by
  have hmarks : ∀ texts : List String, texts.all (fun t => t.toList.all (!isWhiteSpace ·)) = true →
      text ∈ texts → ∀ c ∈ text.toList, isWhiteSpace c = false := by
    intro texts hall hmem
    simpa using List.all_eq_true.mp hall text hmem
  cases kind with
  | integer => exact isWhiteSpace_of_isNumber h
  | float =>
    obtain ⟨a, b, hab, ha, hb⟩ := h
    rw [hab, List.forall_mem_append, List.forall_mem_cons]
    exact ⟨isWhiteSpace_of_isNumber ha, by decide, isWhiteSpace_of_isNumber hb⟩
  | identifier => exact isWhiteSpace_of_isWord h.1
  | keyword => exact isWhiteSpace_of_isWord (isWord_of_keyword h)
  | operator => exact hmarks _ (by decide) h
  | attributor => exact hmarks [":="] (by decide) (List.mem_singleton.mpr h)
  | typeDeclaration => exact hmarks [":"] (by decide) (List.mem_singleton.mpr h)
  | symbol => exact hmarks _ (by decide) h
  | semicolon => exact hmarks [";"] (by decide) (List.mem_singleton.mpr h)
  | relational => exact hmarks _ (by decide) h

theorem TokenKind.Spells.space_not_mem {text : String} {kind : TokenKind} (h : kind.Spells text) :
    ' ' ∉ text.toList :=
  fun hspace => absurd (h.visible ' ' hspace) (by decide)

theorem TokenKind.Spells.ne_empty {text : String} {kind : TokenKind} (h : kind.Spells text) :
    text ≠ "" := by
  rintro rfl
  cases kind with
  | integer => exact h.1 rfl
  | float => obtain ⟨a, b, hab, -, -⟩ := h; simp at hab
  | identifier => obtain ⟨⟨⟨c, hc, -⟩, -⟩, -⟩ := h; simp at hc
  | keyword => exact absurd (isWord_of_keyword h).1 (by simp)
  | operator | symbol | relational => simp [Spells] at h
  | attributor | typeDeclaration | semicolon => simp [Spells] at h

/-! ## 2. What the automaton has gathered -/

/-- From between lexemes, the automaton comes into the state by reading the characters. -/
def LexState.Gathers (cs : List Char) (st : LexState) : Prop :=
  ∀ offset rest, Cursor.scan ⟨offset, cs ++ rest⟩ =
    Cursor.scanFrom st offset (String.ofList cs) (offset + byteSize cs) rest

namespace LexState

variable {st st' : LexState} {cs ds : List Char} {c : Char} {kind : TokenKind}

theorem gathers_nil : initial.Gathers [] := by
  intro offset rest
  rfl

theorem Gathers.shift (h : st.Gathers cs) (hs : st.step c = .shift st') :
    st'.Gathers (cs ++ [c]) := by
  intro offset rest
  rw [List.append_assoc, h, List.singleton_append, Cursor.scanFrom, hs]
  simp [byteSize_append, byteSize, Nat.add_assoc]

theorem Gathers.shiftAll (h : st.Gathers cs) (hs : ∀ d ∈ ds, st.step d = .shift st) :
    st.Gathers (cs ++ ds) := by
  induction ds generalizing cs with
  | nil => simpa using h
  | cons d ds ih =>
    rw [List.forall_mem_cons] at hs
    have hall := ih (h.shift hs.1) hs.2
    simpa using hall

theorem gathers_word (h : IsWord cs) : word.Gathers cs := by
  obtain ⟨⟨first, hfirst, hletter⟩, hall⟩ := h
  obtain ⟨more, rfl⟩ := List.head?_eq_some_iff.mp hfirst
  have hshift : initial.step first = .shift word := by simp [step, stepInitial, hletter]
  refine (gathers_nil.shift hshift).shiftAll fun d hd => ?_
  have hd := hall d (List.mem_cons_of_mem first hd)
  simp [step, hd]

theorem gathers_number (h : IsNumber cs) : number.Gathers cs := by
  obtain ⟨hne, hall⟩ := h
  obtain ⟨first, more, rfl⟩ := List.exists_cons_of_ne_nil hne
  rw [List.forall_mem_cons] at hall
  have hshift : initial.step first = .shift number := by
    simp [step, stepInitial, isAlphabetic_of_isDigit hall.1, hall.1]
  refine (gathers_nil.shift hshift).shiftAll fun d hd => ?_
  simp [step, hall.2 d hd]

theorem gathers_point (h : IsNumber cs) : point.Gathers (cs ++ ['.']) :=
  (gathers_number h).shift (by decide)

theorem gathers_fraction (h : IsNumber cs) (h' : IsNumber ds) :
    fraction.Gathers (cs ++ '.' :: ds) := by
  obtain ⟨hne, hall⟩ := h'
  obtain ⟨first, more, rfl⟩ := List.exists_cons_of_ne_nil hne
  rw [List.forall_mem_cons] at hall
  have hshift : point.step first = .shift fraction := by simp [step, hall.1]
  have hgathers : fraction.Gathers (cs ++ ['.'] ++ [first] ++ more) := by
    refine ((gathers_point h).shift hshift).shiftAll fun d hd => ?_
    simp [step, hall.2 d hd]
  simpa using hgathers

theorem gathers_colon : colon.Gathers [':'] :=
  gathers_nil.shift (by decide)

theorem gathers_relation (h : c = '=' ∨ c = '<' ∨ c = '>') : (relation c).Gathers [c] := by
  refine gathers_nil.shift ?_
  rcases h with rfl | rfl | rfl <;> decide

end LexState

/-! ## 3. How a run ends -/

theorem Token.ofLexeme_of_spells {kind : TokenKind} {cs : List Char}
    (h : kind.Spells (String.ofList cs)) (offset : Nat) :
    ofLexeme kind offset (offset + byteSize cs) (String.ofList cs) = ofChars offset kind cs := by
  have hkind : ¬ (kind = .identifier ∧ (Keyword.ofText? (String.ofList cs)).isSome) := by
    rintro ⟨rfl, hkeyword⟩
    rw [h.2] at hkeyword
    cases hkeyword
  simp [ofLexeme, ofChars, hkind]

theorem Token.ofLexeme_of_keyword {cs : List Char}
    (h : TokenKind.keyword.Spells (String.ofList cs)) (offset : Nat) :
    ofLexeme .identifier offset (offset + byteSize cs) (String.ofList cs) =
      ofChars offset .keyword cs := by
  have hkeyword : (Keyword.ofText? (String.ofList cs)).isSome = true := h
  simp [ofLexeme, ofChars, hkeyword]

/-- The automaton cuts the lexeme out of a text, and stops in front of the rest. -/
def TokenKind.Cuts (lexeme rest : List Char) (kind : TokenKind) : Prop :=
  ∀ offset, Cursor.scan ⟨offset, lexeme ++ rest⟩ =
    (.token (.ofChars offset kind lexeme), ⟨offset + byteSize lexeme, rest⟩)

namespace LexState.Gathers

variable {st : LexState} {cs rest : List Char} {c : Char} {kind : TokenKind}

theorem cuts (h : st.Gathers cs) (hspells : kind.Spells (String.ofList cs))
    (hs : st.step c = .emit kind false) : kind.Cuts cs (c :: rest) := by
  intro offset
  rw [h, Cursor.scanFrom, hs]
  simp only
  rw [Token.ofLexeme_of_spells hspells]

theorem cuts_taking (h : st.Gathers cs) (hspells : kind.Spells (String.ofList (cs ++ [c])))
    (hs : st.step c = .emit kind true) : kind.Cuts (cs ++ [c]) rest := by
  intro offset
  rw [← Token.ofLexeme_of_spells hspells, List.append_assoc, h, List.singleton_append,
    Cursor.scanFrom, hs]
  simp [byteSize_append, byteSize, Nat.add_assoc]

theorem scan_fail {flaw : Flaw} (h : st.Gathers cs) (hs : st.step c = .fail flaw) (offset : Nat) :
    Cursor.scan ⟨offset, cs ++ c :: rest⟩ =
      (.failed ⟨flaw, c, ⟨offset + byteSize cs, c.utf8Size⟩⟩,
        ⟨offset + byteSize cs, c :: rest⟩) := by
  rw [h, Cursor.scanFrom, hs]

end LexState.Gathers

theorem cuts_keyword {cs rest : List Char} {c : Char}
    (hspells : TokenKind.keyword.Spells (String.ofList cs))
    (hs : LexState.word.step c = .emit .identifier false) :
    TokenKind.keyword.Cuts cs (c :: rest) := by
  have hword : IsWord cs := by simpa using isWord_of_keyword hspells
  intro offset
  -- the automaton takes a reserved word for an identifier, and looks it up when it is complete
  rw [LexState.gathers_word hword, Cursor.scanFrom, hs]
  simp only
  rw [Token.ofLexeme_of_keyword hspells]

/-! ## 4. One lexeme -/

theorem eq_toList_of_ofList_eq {cs : List Char} {text : String} (h : String.ofList cs = text) :
    cs = text.toList := by
  rw [← h, String.toList_ofList]

/-- The character completes a lexeme of the kind. This has to be said of the states in which a
lexeme could still go on; the other lexemes are complete by themselves. -/
structure Completes (kind : TokenKind) (lexeme : List Char) (c : Char) : Prop where
  integer : kind = .integer → LexState.number.step c = .emit .integer false
  float : kind = .float → LexState.fraction.step c = .emit .float false
  word : kind = .identifier ∨ kind = .keyword → LexState.word.step c = .emit .identifier false
  colon : kind = .typeDeclaration → LexState.colon.step c = .emit .typeDeclaration false
  relation : kind = .relational → ∀ first, lexeme = [first] →
    (first = '=' ∨ first = '<' ∨ first = '>') →
    (LexState.relation first).step c = .emit .relational false

namespace Completes

variable {kind : TokenKind} {lexeme rest : List Char} {c : Char}

theorem cuts_relational (h : Completes .relational lexeme c)
    (hspells : TokenKind.relational.Spells (String.ofList lexeme)) :
    TokenKind.relational.Cuts lexeme (c :: rest) := by
  have hone : ∀ first : Char, lexeme = [first] → (first = '=' ∨ first = '<' ∨ first = '>') →
      TokenKind.relational.Cuts lexeme (c :: rest) := by
    rintro first rfl hfirst
    exact (LexState.gathers_relation hfirst).cuts hspells (h.relation rfl first rfl hfirst)
  have htwo : ∀ first second : Char, lexeme = [first] ++ [second] →
      (first = '=' ∨ first = '<' ∨ first = '>') →
      (LexState.relation first).step second = .emit .relational true →
      TokenKind.relational.Cuts lexeme (c :: rest) := by
    rintro first second rfl hfirst hs
    exact (LexState.gathers_relation hfirst).cuts_taking hspells hs
  simp only [TokenKind.Spells, List.mem_cons, List.not_mem_nil, or_false] at hspells
  rcases hspells with heq | heq | heq | heq | heq | heq | heq
  · exact hone '=' (eq_toList_of_ofList_eq heq) (by decide)
  · exact htwo '<' '>' (eq_toList_of_ofList_eq heq) (by decide) (by decide)
  · exact htwo '>' '=' (eq_toList_of_ofList_eq heq) (by decide) (by decide)
  · exact htwo '<' '=' (eq_toList_of_ofList_eq heq) (by decide) (by decide)
  · exact hone '>' (eq_toList_of_ofList_eq heq) (by decide)
  · exact hone '<' (eq_toList_of_ofList_eq heq) (by decide)
  · exact htwo '=' '=' (eq_toList_of_ofList_eq heq) (by decide) (by decide)

/-- **The automaton cuts out a lexeme that the next character completes.** -/
theorem cuts (h : Completes kind lexeme c) (hspells : kind.Spells (String.ofList lexeme)) :
    kind.Cuts lexeme (c :: rest) := by
  have hmark : ∀ d : Char, lexeme = [d] → LexState.initial.step d = .emit kind true →
      kind.Cuts lexeme (c :: rest) := by
    rintro d rfl hs
    exact LexState.gathers_nil.cuts_taking hspells hs
  cases kind with
  | integer =>
    have hnumber : IsNumber lexeme := by simpa [TokenKind.Spells] using hspells
    exact (LexState.gathers_number hnumber).cuts hspells (h.integer rfl)
  | float =>
    have hparts := hspells
    obtain ⟨a, b, hab, ha, hb⟩ := hparts
    obtain rfl : lexeme = a ++ '.' :: b := by simpa using hab
    exact (LexState.gathers_fraction ha hb).cuts hspells (h.float rfl)
  | identifier =>
    have hword : IsWord lexeme := by simpa using hspells.1
    exact (LexState.gathers_word hword).cuts hspells (h.word (.inl rfl))
  | keyword => exact cuts_keyword hspells (h.word (.inr rfl))
  | operator =>
    simp only [TokenKind.Spells, List.mem_cons, List.not_mem_nil, or_false] at hspells
    rcases hspells with heq | heq | heq | heq <;>
      exact hmark _ (eq_toList_of_ofList_eq heq) (by decide)
  | symbol =>
    simp only [TokenKind.Spells, List.mem_cons, List.not_mem_nil, or_false] at hspells
    rcases hspells with heq | heq | heq | heq | heq <;>
      exact hmark _ (eq_toList_of_ofList_eq heq) (by decide)
  | semicolon => exact hmark _ (eq_toList_of_ofList_eq hspells) (by decide)
  | attributor =>
    obtain rfl : lexeme = [':'] ++ ['='] := eq_toList_of_ofList_eq hspells
    exact LexState.gathers_colon.cuts_taking hspells (by decide)
  | typeDeclaration =>
    obtain rfl : lexeme = [':'] := eq_toList_of_ofList_eq hspells
    exact LexState.gathers_colon.cuts hspells (h.colon rfl)
  | relational => exact h.cuts_relational hspells

end Completes

namespace LongestLexeme

variable {kind : TokenKind} {lexeme rest : List Char}

theorem not_spells (h : LongestLexeme kind lexeme rest) (more : List Char) (hmore : more <+: rest)
    (hne : more ≠ []) (kind' : TokenKind) : ¬ kind'.Spells (String.ofList (lexeme ++ more)) := by
  intro hspells
  have hlength := h.longest kind' _ ((List.prefix_append_right_inj lexeme).mpr hmore) hspells
  rw [List.length_append] at hlength
  exact hne (List.eq_nil_of_length_eq_zero (by omega))

/-! A lexeme that cannot be longer is complete at the next character. Which characters may follow is
settled by the lexemes that would be longer, and by what is malformed. -/

variable {c : Char}

theorem step_integer (h : LongestLexeme .integer lexeme (c :: rest))
    (hfine : ∀ flaw before d, ¬ Malformed (lexeme ++ c :: rest) flaw before d)
    (hpoint : c = '.' → rest ≠ []) : LexState.number.step c = .emit .integer false := by
  have hnumber : IsNumber lexeme := by simpa [TokenKind.Spells] using h.spells
  have hdigit : c.isDigit = false := by
    rw [← Bool.not_eq_true]
    intro hdigit
    refine h.not_spells [c] (by simp) (by simp) .integer ?_
    simpa [TokenKind.Spells] using hnumber.concat hdigit
  have hdot : c ≠ '.' := by
    rintro rfl
    obtain ⟨d, rest, rfl⟩ := List.exists_cons_of_ne_nil (hpoint rfl)
    -- a digit behind the point makes a longer number, and anything else is malformed
    cases hd : d.isDigit with
    | true =>
      refine h.not_spells ['.', d] (by simp) (by simp) .float ?_
      exact ⟨lexeme, [d], by simp, hnumber, isNumber_singleton hd⟩
    | false => exact hfine _ _ _ (.expectedDigitAfterDot (by simp) hnumber hd)
  have hletter : isAlphabetic c = false := by
    rw [← Bool.not_eq_true]
    intro hletter
    exact hfine _ _ _ (.letterAfterNumber (by simp) (.inl h.spells) hletter)
  simp [LexState.step, hdigit, hdot, hletter]

theorem step_float (h : LongestLexeme .float lexeme (c :: rest))
    (hfine : ∀ flaw before d, ¬ Malformed (lexeme ++ c :: rest) flaw before d) :
    LexState.fraction.step c = .emit .float false := by
  have hdigit : c.isDigit = false := by
    rw [← Bool.not_eq_true]
    intro hdigit
    obtain ⟨a, b, hab, ha, hb⟩ := h.spells
    refine h.not_spells [c] (by simp) (by simp) .float ?_
    exact ⟨a, b ++ [c], by simpa using congrArg (· ++ [c]) hab, ha, hb.concat hdigit⟩
  have hletter : isAlphabetic c = false := by
    rw [← Bool.not_eq_true]
    intro hletter
    exact hfine _ _ _ (.letterAfterNumber (by simp) (.inr h.spells) hletter)
  simp [LexState.step, hdigit, hletter]

theorem step_word (h : LongestLexeme kind lexeme (c :: rest)) (hword : IsWord lexeme) :
    LexState.word.step c = .emit .identifier false := by
  have hend : ¬ (isAlphabetic c = true ∨ c.isDigit = true) := by
    intro hc
    obtain ⟨kind', hspells⟩ := exists_spells_of_isWord (hword.concat hc)
    exact h.not_spells [c] (by simp) (by simp) kind' hspells
  rw [not_or, Bool.not_eq_true, Bool.not_eq_true] at hend
  simp [LexState.step, hend]

theorem step_colon (h : LongestLexeme .typeDeclaration [':'] (c :: rest))
    (hfine : ∀ flaw before d, ¬ Malformed ([':'] ++ c :: rest) flaw before d) :
    LexState.colon.step c = .emit .typeDeclaration false := by
  have hequals : c ≠ '=' := by
    rintro rfl
    exact h.not_spells ['='] (by simp) (by simp) .attributor rfl
  have hdigit : c.isDigit = false := by
    rw [← Bool.not_eq_true]
    intro hdigit
    exact hfine _ _ _ (.digitAfterColon (by simp) hdigit)
  simp [LexState.step, hequals, hdigit]

theorem step_relation {first : Char} (h : LongestLexeme .relational [first] (c :: rest))
    (hfirst : first = '=' ∨ first = '<' ∨ first = '>') :
    (LexState.relation first).step c = .emit .relational false := by
  have hequals : c ≠ '=' := by
    rintro rfl
    refine h.not_spells ['='] (by simp) (by simp) .relational ?_
    rcases hfirst with rfl | rfl | rfl <;> simp [TokenKind.Spells]
  have hgreater : ¬ (c = '>' ∧ first = '<') := by
    rintro ⟨rfl, rfl⟩
    exact h.not_spells ['>'] (by simp) (by simp) .relational (by simp [TokenKind.Spells])
  simp [LexState.step, hequals, hgreater]

theorem completes (h : LongestLexeme kind lexeme (c :: rest))
    (hfine : ∀ flaw before d, ¬ Malformed (lexeme ++ c :: rest) flaw before d)
    (hpoint : c = '.' → rest ≠ []) : Completes kind lexeme c where
  integer := by
    rintro rfl
    exact h.step_integer hfine hpoint
  float := by
    rintro rfl
    exact h.step_float hfine
  word hkind := by
    refine h.step_word ?_
    rcases hkind with rfl | rfl
    · simpa using h.spells.1
    · simpa using isWord_of_keyword h.spells
  colon := by
    rintro rfl
    obtain rfl : lexeme = [':'] := eq_toList_of_ofList_eq h.spells
    exact h.step_colon hfine
  relation := by
    rintro rfl first rfl hfirst
    exact h.step_relation hfirst

/-- **The automaton cuts out the longest lexeme.** -/
theorem cuts (h : LongestLexeme kind lexeme (c :: rest))
    (hfine : ∀ flaw before d, ¬ Malformed (lexeme ++ c :: rest) flaw before d)
    (hpoint : c = '.' → rest ≠ []) : kind.Cuts lexeme (c :: rest) :=
  (h.completes hfine hpoint).cuts h.spells

end LongestLexeme

namespace Malformed

variable {text before : List Char} {flaw : Flaw} {c : Char}

theorem step_unexpected (hnone : ∀ kind : TokenKind, ¬ kind.Spells (String.ofList [c]))
    (hvisible : isWhiteSpace c = false) : LexState.initial.step c = .fail .unexpectedChar := by
  rw [LexState.step, LexState.stepInitial]
  split_ifs with hletter hdigit hcolon hrelation hoperator hsymbol hsemicolon hblank
  · obtain ⟨kind, hspells⟩ := exists_spells_of_isWord (isWord_singleton hletter)
    exact absurd hspells (hnone kind)
  · exact absurd (by simpa [TokenKind.Spells] using isNumber_singleton hdigit) (hnone .integer)
  · exact absurd (by rw [hcolon]; rfl) (hnone .typeDeclaration)
  · refine absurd ?_ (hnone .relational)
    rcases hrelation with rfl | rfl | rfl <;> simp [TokenKind.Spells]
  · refine absurd ?_ (hnone .operator)
    rcases hoperator with rfl | rfl | rfl | rfl <;> simp [TokenKind.Spells]
  · refine absurd ?_ (hnone .symbol)
    rcases hsymbol with rfl | rfl | rfl | rfl | rfl <;> simp [TokenKind.Spells]
  · exact absurd (by rw [hsemicolon]; rfl) (hnone .semicolon)
  · rw [hvisible] at hblank
    cases hblank
  · rfl

/-- **The automaton refuses malformed text at the character that does not fit.** -/
theorem scan (h : Malformed text flaw before c) (offset : Nat) :
    ∃ cursor, Cursor.scan ⟨offset, text⟩ =
      (.failed ⟨flaw, c, ⟨offset + byteSize before, c.utf8Size⟩⟩, cursor) := by
  obtain ⟨rest, rfl⟩ := h.begins_text
  rw [List.append_assoc, List.singleton_append]
  refine ⟨⟨offset + byteSize before, c :: rest⟩, ?_⟩
  cases h with
  | letterAfterNumber _ hnumber hletter =>
    have hdigit := isDigit_of_isAlphabetic hletter
    have hdot : c ≠ '.' := by
      rintro rfl
      exact absurd hletter (by decide)
    rcases hnumber with hinteger | ⟨a, b, hab, ha, hb⟩
    · have hgathers : LexState.number.Gathers before :=
        LexState.gathers_number (by simpa [TokenKind.Spells] using hinteger)
      exact hgathers.scan_fail (by simp [LexState.step, hdigit, hdot, hletter]) offset
    · obtain rfl : before = a ++ '.' :: b := by simpa using hab
      exact (LexState.gathers_fraction ha hb).scan_fail
        (by simp [LexState.step, hdigit, hletter]) offset
  | expectedDigitAfterDot _ hdigits hother =>
    exact (LexState.gathers_point hdigits).scan_fail (by simp [LexState.step, hother]) offset
  | digitAfterColon _ hdigit =>
    have hequals : c ≠ '=' := by
      rintro rfl
      exact absurd hdigit (by decide)
    exact LexState.gathers_colon.scan_fail (by simp [LexState.step, hequals, hdigit]) offset
  | unexpectedChar hbegins hvisible hnone =>
    have hs := step_unexpected (fun kind => hnone kind [c] hbegins) hvisible
    exact LexState.gathers_nil.scan_fail hs offset

end Malformed

/-! ## 5. The whole text -/

theorem LexState.step_blank {c : Char} (h : isWhiteSpace c = true) : initial.step c = .skip := by
  rw [step, stepInitial]
  split_ifs with hletter hdigit hcolon hrelation hoperator hsymbol hsemicolon
  · rw [isWhiteSpace_of_isAlphabetic hletter] at h
    cases h
  · rw [isWhiteSpace_of_isDigit hdigit] at h
    cases h
  · subst hcolon
    exact absurd h (by decide)
  · rcases hrelation with rfl | rfl | rfl <;> exact absurd h (by decide)
  · rcases hoperator with rfl | rfl | rfl | rfl <;> exact absurd h (by decide)
  · rcases hsymbol with rfl | rfl | rfl | rfl | rfl <;> exact absurd h (by decide)
  · subst hsemicolon
    exact absurd h (by decide)
  · rfl

namespace Cursor

theorem scan_blank {c : Char} (h : isWhiteSpace c = true) (offset : Nat) (text : List Char) :
    scan ⟨offset, c :: text⟩ = scan ⟨offset + c.utf8Size, text⟩ := by
  rw [scan, scanFrom, LexState.step_blank h, scan]

theorem stream_congr {c c' : Cursor} (h : c.scan = c'.scan) : c.stream = c'.stream := by
  rcases hs : c'.scan with ⟨s, d⟩
  cases s with
  | token t => rw [stream_of_token (h.trans hs), stream_of_token hs]
  | ended st => rw [stream_of_ended (h.trans hs), stream_of_ended hs]
  | failed e => rw [stream_of_failed (h.trans hs), stream_of_failed hs]

end Cursor

theorem exists_rest_of_append {lexeme rest text : List Char} (h : lexeme ++ rest = text ++ [' '])
    (hspace : ' ' ∉ lexeme) : ∃ rest', text = lexeme ++ rest' ∧ rest = rest' ++ [' '] := by
  rcases List.append_eq_append_iff.mp h with ⟨rest', htext, hrest⟩ | ⟨more, hlexeme, hmore⟩
  · exact ⟨rest', htext, hrest⟩
  · cases more with
    | nil => exact ⟨[], by simp [hlexeme], by simpa using hmore.symm⟩
    | cons d more =>
      obtain ⟨rfl, -⟩ := List.cons.inj hmore
      exact absurd (by simp [hlexeme]) hspace

theorem LongestLexeme.exists_rest {kind : TokenKind} {lexeme rest text : List Char}
    (h : LongestLexeme kind lexeme rest) (htext : lexeme ++ rest = text ++ [' ']) :
    ∃ rest', text = lexeme ++ rest' ∧ rest = rest' ++ [' '] :=
  exists_rest_of_append htext (by simpa using h.spells.space_not_mem)

theorem LongestLexeme.ne_nil {kind : TokenKind} {lexeme rest : List Char}
    (h : LongestLexeme kind lexeme rest) : lexeme ≠ [] := by
  rintro rfl
  exact h.spells.ne_empty rfl

theorem LongestMatch.stream_eq {offset : Nat} {text : List Char} {x : Stream}
    (h : LongestMatch offset text x) (hend : text = [] ∨ ∃ cs, text = cs ++ [' ']) :
    Cursor.stream ⟨offset, text⟩ = x := by
  induction h with
  | done => exact Cursor.stream_of_rest_nil rfl
  | @blank offset c text x hblank _ ih =>
    rw [Cursor.stream_congr (Cursor.scan_blank hblank offset text)]
    apply ih
    obtain ⟨cs, hcs⟩ := hend.resolve_left (by simp)
    rcases List.cons_eq_append_iff.mp hcs with ⟨-, hlast⟩ | ⟨cs', -, htext⟩
    · exact .inl (List.cons.inj hlast).2.symm
    · exact .inr ⟨cs', htext⟩
  | @lexeme offset kind lexeme rest x hlongest hfine _ ih =>
    obtain ⟨cs, hcs⟩ := hend.resolve_left (by simp [hlongest.ne_nil])
    obtain ⟨rest', -, rfl⟩ := hlongest.exists_rest hcs
    obtain ⟨c, more, hnext⟩ : ∃ c more, rest' ++ [' '] = c :: more :=
      List.exists_cons_of_ne_nil (by simp)
    -- the text ends with a space, so a point is not the last of it
    have hpoint : c = '.' → more ≠ [] := by
      rintro rfl rfl
      have hlast := congrArg List.getLast? hnext
      simp at hlast
    rw [hnext] at hlongest hfine
    have hcuts := hlongest.cuts hfine hpoint offset
    rw [← hnext] at hcuts
    rw [Cursor.stream_of_token hcuts, ih (.inr ⟨rest', rfl⟩)]
  | malformed hmalformed =>
    obtain ⟨cursor, hscan⟩ := hmalformed.scan _
    exact Cursor.stream_of_failed hscan

theorem exists_longestLexeme {text lexeme : List Char} {kind : TokenKind}
    (hbegins : lexeme <+: text) (hspells : kind.Spells (String.ofList lexeme)) :
    ∃ kind' lexeme' rest, LongestLexeme kind' lexeme' rest ∧ text = lexeme' ++ rest := by
  classical
  let IsLexeme (n : Nat) : Prop := ∃ kind : TokenKind, kind.Spells (String.ofList (text.take n))
  have hlexeme : ∀ {kind : TokenKind} {lexeme : List Char}, lexeme <+: text →
      kind.Spells (String.ofList lexeme) → IsLexeme lexeme.length := by
    intro kind lexeme hbegins hspells
    exact ⟨kind, by rwa [← List.prefix_iff_eq_take.mp hbegins]⟩
  obtain ⟨kind', hspells'⟩ : IsLexeme (Nat.findGreatest IsLexeme text.length) :=
    Nat.findGreatest_spec hbegins.length_le (hlexeme hbegins hspells)
  refine ⟨kind', _, text.drop _, ⟨hspells', ?_⟩, (List.take_append_drop _ text).symm⟩
  intro kind'' other hother hspells''
  rw [List.take_append_drop] at hother
  rw [List.length_take_of_le (Nat.findGreatest_le _)]
  exact Nat.le_findGreatest hother.length_le (hlexeme hother hspells'')

/-- **Cutting by longest match never gets stuck.** -/
theorem exists_longestMatch (offset : Nat) (text : List Char) :
    ∃ x, LongestMatch offset text x := by
  induction hn : text.length using Nat.strong_induction_on generalizing offset text with
  | _ n ih =>
    subst hn
    by_cases hbad : ∃ flaw before c, Malformed text flaw before c
    · obtain ⟨flaw, before, c, hmalformed⟩ := hbad
      exact ⟨_, .malformed hmalformed⟩
    simp only [not_exists] at hbad
    cases text with
    | nil => exact ⟨_, .done⟩
    | cons c text =>
      cases hc : isWhiteSpace c with
      | true =>
        obtain ⟨x, hx⟩ := ih text.length (by simp) (offset + c.utf8Size) text rfl
        exact ⟨x, .blank hc hx⟩
      | false =>
        -- a character that is neither blank nor unexpected begins a lexeme
        have hsome : ∃ (kind : TokenKind) (lexeme : List Char), lexeme <+: c :: text ∧
            kind.Spells (String.ofList lexeme) := by
          by_contra hnone
          simp only [not_exists, not_and] at hnone
          exact hbad _ _ _ (.unexpectedChar (by simp) hc hnone)
        obtain ⟨kind, lexeme, hbegins, hspells⟩ := hsome
        obtain ⟨kind', lexeme', rest, hlongest, htext⟩ := exists_longestLexeme hbegins hspells
        have hshorter : rest.length < (c :: text).length := by
          rw [htext, List.length_append]
          exact Nat.lt_add_of_pos_left (List.length_pos_iff.mpr hlongest.ne_nil)
        obtain ⟨x, hx⟩ := ih rest.length hshorter (offset + byteSize lexeme') rest rfl
        rw [htext] at hbad ⊢
        exact ⟨_, .lexeme hlongest hbad hx⟩

theorem sourceStream_eq_iff {source : String} {x : Stream} :
    sourceStream source = x ↔ LongestMatch 0 (source.toList ++ [' ']) x := by
  have hend : source.toList ++ [' '] = [] ∨ ∃ cs, source.toList ++ [' '] = cs ++ [' '] :=
    .inr ⟨source.toList, rfl⟩
  constructor
  · rintro rfl
    obtain ⟨x, hx⟩ := exists_longestMatch 0 (source.toList ++ [' '])
    have hstream : sourceStream source = x := hx.stream_eq hend
    rwa [hstream]
  · intro hx
    exact hx.stream_eq hend

/-- **The tokens of a source are its longest lexemes**, one after the other, and a source is refused
exactly where cutting it by longest match fails. -/
theorem Lexer.tokens_iff_longestMatch (source : String) (answer : Except LexError (List Token)) :
    (Lexer.ofSource source).tokens.answer = answer ↔
      ∃ x, LongestMatch 0 (source.toList ++ [' ']) x ∧ x.collected = answer := by
  rw [tokens_ofSource_answer]
  constructor
  · intro h
    exact ⟨_, sourceStream_eq_iff.mp rfl, h⟩
  · rintro ⟨x, hx, rfl⟩
    rw [sourceStream_eq_iff.mpr hx]

end ThreeAddress
