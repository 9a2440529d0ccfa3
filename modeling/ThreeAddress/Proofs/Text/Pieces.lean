import ThreeAddress.Text.Lines

/-!
# Cutting text at a separator

Every text can be written as some pieces that are each closed by the separator, and one more behind
them (`exists_pieces`), with no separator inside of a piece. Cutting the text gives back these
pieces (`split_flatMap`). So whatever is to be said about the result of a cut can be said about a
text that is written in this way.
-/

namespace ThreeAddress.Text

variable {separator : Char} {a b last : List Char} {front : List (List Char)}

theorem split_of_not_mem (h : separator ∉ a) : split separator a = [a] := by
  induction a with
  | nil => rfl
  | cons c a ih =>
    rw [List.mem_cons, not_or] at h
    rw [split, if_neg (Ne.symm h.1), ih h.2]

theorem split_append_cons (h : separator ∉ a) :
    split separator (a ++ separator :: b) = a :: split separator b := by
  induction a with
  | nil => rw [List.nil_append, split, if_pos rfl]
  | cons c a ih =>
    rw [List.mem_cons, not_or] at h
    rw [List.cons_append, split, if_neg (Ne.symm h.1), ih h.2]

theorem split_flatMap (hfront : ∀ piece ∈ front, separator ∉ piece) (hlast : separator ∉ last) :
    split separator (front.flatMap (· ++ [separator]) ++ last) = front ++ [last] := by
  induction front with
  | nil => exact split_of_not_mem hlast
  | cons piece front ih =>
    rw [List.forall_mem_cons] at hfront
    rw [List.flatMap_cons, List.append_assoc, List.append_assoc, List.singleton_append,
      split_append_cons hfront.1, ih hfront.2, List.cons_append]

/-- The lines of a text each of whose lines is closed by a line feed. -/
theorem lines_flatMap {rows : List (List Char)} (h : ∀ row ∈ rows, '\n' ∉ row) :
    lines (rows.flatMap (· ++ ['\n'])) = rows ++ [[]] := by
  have hsplit := split_flatMap h (List.not_mem_nil (a := '\n'))
  rwa [List.append_nil] at hsplit

theorem exists_pieces (separator : Char) (cs : List Char) :
    ∃ (front : List (List Char)) (last : List Char),
      cs = front.flatMap (· ++ [separator]) ++ last ∧
      (∀ piece ∈ front, separator ∉ piece) ∧ separator ∉ last := by
  induction cs with
  | nil => exact ⟨[], [], rfl, fun piece hpiece => absurd hpiece List.not_mem_nil, List.not_mem_nil⟩
  | cons c cs ih =>
    obtain ⟨front, last, rfl, hfront, hlast⟩ := ih
    by_cases hc : c = separator
    · subst hc
      exact ⟨[] :: front, last, rfl, List.forall_mem_cons.mpr ⟨List.not_mem_nil, hfront⟩, hlast⟩
    · -- the character belongs to the piece that comes first
      have hcons : ∀ piece, separator ∉ piece → separator ∉ c :: piece := by
        intro piece hpiece hmem
        rcases List.mem_cons.mp hmem with heq | hmem
        · exact hc heq.symm
        · exact hpiece hmem
      cases front with
      | nil => exact ⟨[], c :: last, rfl, hfront, hcons last hlast⟩
      | cons piece front =>
        rw [List.forall_mem_cons] at hfront
        exact ⟨(c :: piece) :: front, last, rfl,
          List.forall_mem_cons.mpr ⟨hcons piece hfront.1, hfront.2⟩, hlast⟩

theorem not_mem_of_mem_split {cs piece : List Char} (h : piece ∈ split separator cs) :
    separator ∉ piece := by
  obtain ⟨front, last, rfl, hfront, hlast⟩ := exists_pieces separator cs
  rw [split_flatMap hfront hlast, List.mem_append, List.mem_singleton] at h
  rcases h with h | rfl
  · exact hfront piece h
  · exact hlast

theorem intercalate_concat (separator : Char) (front : List (List Char)) (last : List Char) :
    [separator].intercalate (front ++ [last]) = front.flatMap (· ++ [separator]) ++ last := by
  induction front with
  | nil => simp
  | cons piece front ih =>
    have hne : front ++ [last] ≠ [] := by simp
    obtain ⟨next, more, hnext⟩ := List.exists_cons_of_ne_nil hne
    rw [List.cons_append, hnext, List.intercalate_cons_cons, ← hnext, ih, List.flatMap_cons]
    simp only [List.append_assoc]

end ThreeAddress.Text
