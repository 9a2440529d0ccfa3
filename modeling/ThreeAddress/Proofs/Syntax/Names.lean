import Mathlib.Data.List.Induction
import Mathlib.Data.List.TakeWhile
import ThreeAddress.Token

/-!
# Names in a list of tokens

The first two tokens of a program are its heading. What stands between them and `begin` is the
declaration part, and the rest is the command part. An identifier in the declaration part declares a
name, once; an identifier in the command part uses one that was declared.

The two rules can be read for the whole list or token by token, with what came before the token in
hand. `wellNamed_iff` says that it makes no difference.
-/

namespace ThreeAddress

/-- The texts of the identifiers among some tokens. -/
def identifiers (ts : List Token) : List String :=
  (ts.filter (·.kind = .identifier)).map Token.text

/-- The tokens between the heading and `begin`. -/
def declarationPart (ts : List Token) : List Token :=
  (ts.drop 2).takeWhile (!·.isKeyword .beginWord)

/-- The tokens from `begin` on. -/
def commandPart (ts : List Token) : List Token :=
  (ts.drop 2).dropWhile (!·.isKeyword .beginWord)

/-- After the tokens `seen`, the token declares a name again. -/
def Redeclares (seen : List Token) (t : Token) : Prop :=
  t.kind = .identifier ∧ commandPart seen = [] ∧ t.text ∈ identifiers (declarationPart seen)

/-- After the tokens `seen`, the token uses a name that was not declared. -/
def UsesUndeclared (seen : List Token) (t : Token) : Prop :=
  t.kind = .identifier ∧ commandPart seen ≠ [] ∧ t.text ∉ identifiers (declarationPart seen)

/-- No token breaks a rule about names. -/
def WellNamed (ts : List Token) : Prop :=
  ∀ seen t rest, ts = seen ++ t :: rest → ¬ Redeclares seen t ∧ ¬ UsesUndeclared seen t

/-! ## 1. The parts of a list that grows -/

@[simp] theorem identifiers_nil : identifiers [] = [] :=
  rfl

@[simp] theorem identifiers_append (ts us : List Token) :
    identifiers (ts ++ us) = identifiers ts ++ identifiers us := by
  simp [identifiers]

theorem identifiers_singleton {t : Token} (h : t.kind = .identifier) :
    identifiers [t] = [t.text] := by
  simp [identifiers, h]

theorem identifiers_singleton_of_ne {t : Token} (h : t.kind ≠ .identifier) :
    identifiers [t] = [] := by
  simp [identifiers, h]

variable {seen : List Token} {t : Token}

/-- The heading belongs to neither part. -/
theorem parts_heading (h : seen.length < 2) :
    declarationPart (seen ++ [t]) = declarationPart seen ∧
      commandPart (seen ++ [t]) = commandPart seen := by
  have hshort : seen.drop 2 = [] := List.drop_eq_nil_of_le (by omega)
  have hlong : (seen ++ [t]).drop 2 = [] := List.drop_eq_nil_of_le (by simp; omega)
  rw [declarationPart, declarationPart, commandPart, commandPart, hshort, hlong]
  exact ⟨rfl, rfl⟩

theorem length_of_commandPart (h : commandPart seen ≠ []) : 2 ≤ seen.length := by
  refine Nat.le_of_not_lt fun hlen => h ?_
  rw [commandPart, List.drop_eq_nil_of_le (Nat.le_of_lt hlen)]
  rfl

/-- Once the command part has begun, the token belongs to it. -/
theorem parts_commands (h : commandPart seen ≠ []) :
    declarationPart (seen ++ [t]) = declarationPart seen ∧
      commandPart (seen ++ [t]) = commandPart seen ++ [t] := by
  have hlen := length_of_commandPart h
  rw [commandPart] at h
  rw [declarationPart, declarationPart, commandPart, commandPart,
    List.drop_append_of_le_length hlen, List.takeWhile_append, List.dropWhile_append]
  refine ⟨if_neg fun hall => h ?_, if_neg fun hnil => h (List.isEmpty_iff.mp hnil)⟩
  have hsplit := congrArg List.length
    (List.takeWhile_append_dropWhile (p := (!·.isKeyword .beginWord)) (l := seen.drop 2))
  rw [List.length_append] at hsplit
  exact List.eq_nil_of_length_eq_zero (by omega)

theorem commandPart_append_ne_nil (h : commandPart seen ≠ []) (u : List Token) :
    commandPart (seen ++ u) ≠ [] := by
  induction u using List.reverseRecOn with
  | nil => rwa [List.append_nil]
  | append_singleton u t ih =>
    rw [← List.append_assoc, (parts_commands ih).2]
    simp

/-- Before that, the token belongs to the declaration part unless it is `begin`. -/
theorem parts_declarations (hlen : 2 ≤ seen.length) (h : commandPart seen = []) :
    declarationPart (seen ++ [t]) =
        declarationPart seen ++ (if t.isKeyword .beginWord then [] else [t]) ∧
      commandPart (seen ++ [t]) = if t.isKeyword .beginWord then [t] else [] := by
  rw [commandPart, List.dropWhile_eq_nil_iff] at h
  rw [declarationPart, declarationPart, commandPart, List.drop_append_of_le_length hlen,
    List.takeWhile_append_of_pos h, List.dropWhile_append_of_pos h,
    List.takeWhile_eq_self_iff.mpr h]
  cases ht : t.isKeyword .beginWord <;> simp [ht]

/-- A token that is no identifier declares no name. -/
theorem identifiers_declarationPart_of_ne (h : t.kind ≠ .identifier) :
    identifiers (declarationPart (seen ++ [t])) = identifiers (declarationPart seen) := by
  rcases Nat.lt_or_ge seen.length 2 with hlen | hlen
  · rw [(parts_heading hlen).1]
  · by_cases hc : commandPart seen = []
    · rw [(parts_declarations hlen hc).1, identifiers_append]
      split
      · exact List.append_nil _
      · rw [identifiers_singleton_of_ne h, List.append_nil]
    · rw [(parts_commands hc).1]

theorem not_isKeyword_of_identifier (h : t.kind = .identifier) (k : Keyword) :
    t.isKeyword k = false := by
  simp [Token.isKeyword, Token.keyword?, h]

/-! ## 2. Token by token -/

theorem WellNamed.nil : WellNamed [] :=
  fun seen t rest h => by simp at h

theorem wellNamed_concat :
    WellNamed (seen ++ [t]) ↔ WellNamed seen ∧ ¬ Redeclares seen t ∧ ¬ UsesUndeclared seen t := by
  constructor
  · intro h
    refine ⟨fun s u rest hs => h s u (rest ++ [t]) (by rw [hs]; simp), h seen t [] rfl⟩
  · rintro ⟨h, ht⟩ s u rest hs
    rcases List.eq_nil_or_concat rest with rfl | ⟨rest, v, rfl⟩
    · obtain ⟨rfl, hu⟩ := List.append_inj' hs rfl
      obtain rfl := (List.cons.inj hu).1
      exact ht
    · rw [List.concat_eq_append, ← List.cons_append, ← List.append_assoc] at hs
      exact h s u rest (List.append_inj' hs rfl).1

/-- **The rules about names, for the whole list**: no name is declared twice, and every name that is
used is declared. -/
theorem wellNamed_iff {ts : List Token} :
    WellNamed ts ↔ (identifiers (declarationPart ts)).Nodup ∧
      ∀ x ∈ identifiers (commandPart ts), x ∈ identifiers (declarationPart ts) := by
  induction ts using List.reverseRecOn with
  | nil => exact iff_of_true .nil ⟨List.nodup_nil, fun x hx => absurd hx List.not_mem_nil⟩
  | append_singleton ts t ih =>
    rw [wellNamed_concat, ih]
    rcases Nat.lt_or_ge ts.length 2 with hlen | hlen
    · -- no part has begun, so there is nothing to redeclare and nothing to use
      have hnil : ts.drop 2 = [] := List.drop_eq_nil_of_le (Nat.le_of_lt hlen)
      have hd : declarationPart ts = [] := by rw [declarationPart, hnil]; rfl
      have hc : commandPart ts = [] := by rw [commandPart, hnil]; rfl
      rw [(parts_heading hlen).1, (parts_heading hlen).2]
      simp [Redeclares, UsesUndeclared, hd, hc, identifiers]
    · by_cases hc : commandPart ts = []
      · obtain ⟨hd', hc'⟩ := parts_declarations (t := t) hlen hc
        rw [hd', hc']
        have huse : ¬ UsesUndeclared ts t := fun h => h.2.1 hc
        by_cases hk : t.kind = .identifier
        · have hb := not_isKeyword_of_identifier hk .beginWord
          have hre : Redeclares ts t ↔ t.text ∈ identifiers (declarationPart ts) := by
            simp [Redeclares, hk, hc]
          have hne : (∀ x ∈ identifiers (declarationPart ts), x ≠ t.text) ↔
              t.text ∉ identifiers (declarationPart ts) :=
            ⟨fun h ht => h _ ht rfl, fun h x hx heq => h (heq ▸ hx)⟩
          simp [hre, huse, hb, hc, identifiers_singleton hk, List.nodup_append, hne]
        · have hre : ¬ Redeclares ts t := fun h => hk h.1
          cases hb : t.isKeyword .beginWord <;>
            simp [hre, huse, hc, identifiers_singleton_of_ne hk]
      · obtain ⟨hd', hc'⟩ := parts_commands (t := t) hc
        rw [hd', hc']
        by_cases hk : t.kind = .identifier
        · simp [Redeclares, UsesUndeclared, hk, hc, identifiers_singleton, or_imp, forall_and,
            and_assoc]
        · simp [Redeclares, UsesUndeclared, hk, identifiers_singleton_of_ne]

end ThreeAddress
