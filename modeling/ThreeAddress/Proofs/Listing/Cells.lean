import Mathlib.Data.List.TakeWhile
import ThreeAddress.Program.Listing
import ThreeAddress.Proofs.Text.Pieces

/-!
# The cells of a listing

A row of a listing is made of four cells: the symbol of the operator and the texts of the three
slots. Reading a listing cuts it into rows at the line feeds, takes the header and the line numbers
away, and cuts each row into its cells at the semicolons. If no cell has white space or a semicolon
in it, this gives back the cells of the instructions (`Listing.cells_render`).

The one thing to be careful about is the end of a row. An empty last cell leaves a blank, which is
cut off.
-/

namespace ThreeAddress

/-! ## 1. Cutting text -/

namespace Text

variable {a : List Char}

/-- There is no white space in the text, and no semicolon. -/
def Plain (cs : List Char) : Prop :=
  ∀ c ∈ cs, isWhiteSpace c = false ∧ c ≠ ';'

theorem Plain.nil : Plain [] :=
  fun _ hc => absurd hc List.not_mem_nil

theorem Plain.not_mem {c : Char} (h : Plain a) (hc : isWhiteSpace c = true) : c ∉ a :=
  fun hmem => Bool.false_ne_true ((h c hmem).1.symm.trans hc)

theorem Plain.semicolon_not_mem (h : Plain a) : ';' ∉ a :=
  fun hmem => (h ';' hmem).2 rfl

theorem Plain.dropWhile_blank (h : Plain a) : a.dropWhile (· = ' ') = a := by
  rw [List.dropWhile_eq_self_iff]
  intro hlength hblank
  refine h.not_mem (c := ' ') (by decide) ?_
  rw [← of_decide_eq_true hblank]
  exact List.getElem_mem hlength

/-- Trimming stops at the end of a plain text. -/
theorem dropWhile_reverse_plain (h : Plain a) (hne : a ≠ []) (b : List Char) :
    ((b ++ a).reverse.dropWhile isWhiteSpace).reverse = b ++ a := by
  obtain ⟨c, hc⟩ : ∃ c, a.reverse.head? = some c :=
    Option.ne_none_iff_exists'.mp (by simpa using hne)
  obtain ⟨rest, hrest⟩ : ∃ rest, a.reverse = c :: rest := List.head?_eq_some_iff.mp hc
  have hplain : isWhiteSpace c = false :=
    (h c (List.mem_reverse.mp (hrest ▸ List.mem_cons_self))).1
  rw [List.reverse_append, hrest, List.cons_append, List.dropWhile_cons_of_neg (by simp [hplain]),
    ← List.cons_append, ← hrest, ← List.reverse_append, List.reverse_reverse]

end Text

/-! ## 2. Rows -/

open Text

namespace Quad

/-- The cells of an instruction. -/
def cells (q : Quad) : List (List Char) :=
  [q.op.symbol.toList, (slotText q.arg1).toList, (slotText q.arg2).toList,
    (slotText q.result).toList]

/-- The cells of an instruction can be told apart in a row. -/
def Printable (q : Quad) : Prop :=
  ∀ cell ∈ q.cells, Plain cell

/-- An instruction up to its last semicolon, with `rest` behind it. -/
def fields (q : Quad) (rest : List Char) : List Char :=
  q.op.symbol.toList ++ ';' :: (' ' :: (slotText q.arg1).toList ++
    ';' :: (' ' :: (slotText q.arg2).toList ++ ';' :: rest))

theorem fields_append (q : Quad) (rest rest' : List Char) :
    q.fields (rest ++ rest') = q.fields rest ++ rest' := by
  simp [fields]

/-- The last cell, which is set off by a blank unless it is empty. -/
def lastField (q : Quad) : List Char :=
  if (slotText q.result).toList = [] then [] else ' ' :: (slotText q.result).toList

/-- **The text of an instruction**, character by character. -/
theorem toList_text {q : Quad} (h : q.Printable) : q.text.toList = q.fields q.lastField := by
  have huntrimmed : (s!"{q.op.symbol}; {slotText q.arg1}; {slotText q.arg2}; {slotText q.result}"
      ).toList = q.fields (' ' :: (slotText q.result).toList) := by
    simp [fields, toString]
  rw [text, trimEnd, String.toList_ofList, huntrimmed, lastField]
  split
  · -- the blank behind the last semicolon goes, and the semicolon stays
    rename_i hempty
    have hblank : isWhiteSpace ' ' = true := by decide
    have hsemicolon : isWhiteSpace ';' = false := by decide
    simp [hempty, fields, hblank, hsemicolon]
  · rename_i hne
    have hplain : Plain (slotText q.result).toList := h _ (by simp [cells])
    rw [← List.singleton_append, fields_append]
    exact dropWhile_reverse_plain hplain hne _

theorem newline_not_mem_text {q : Quad} (h : q.Printable) : '\n' ∉ q.text.toList := by
  have hcells : ∀ cell ∈ q.cells, '\n' ∉ cell :=
    fun cell hcell => (h cell hcell).not_mem (by decide)
  simp only [cells, List.forall_mem_cons] at hcells
  rw [toList_text h, fields, lastField]
  split <;> simp [hcells]

/-- The cells of a row. -/
def readCells (row : List Char) : List (List Char) :=
  (split ';' row).map (·.dropWhile (· = ' '))

theorem split_fields {q : Quad} (h : q.Printable) (rest : List Char) :
    split ';' (q.fields rest) = q.op.symbol.toList :: (' ' :: (slotText q.arg1).toList) ::
      (' ' :: (slotText q.arg2).toList) :: split ';' rest := by
  have hcells : ∀ cell ∈ q.cells, ';' ∉ cell := fun cell hcell => (h cell hcell).semicolon_not_mem
  simp only [cells, List.forall_mem_cons] at hcells
  rw [fields, split_append_cons hcells.1, split_append_cons (by simpa using hcells.2.1),
    split_append_cons (by simpa using hcells.2.2.1)]

theorem readCells_text {q : Quad} (h : q.Printable) : readCells q.text.toList = q.cells := by
  have hblank : ∀ cell ∈ q.cells, cell.dropWhile (· = ' ') = cell :=
    fun cell hcell => (h cell hcell).dropWhile_blank
  have hplain : Plain (slotText q.result).toList := h _ (by simp [cells])
  have hlast : split ';' q.lastField = [q.lastField] := by
    refine split_of_not_mem ?_
    rw [lastField]
    split
    · exact List.not_mem_nil
    · simpa using hplain.semicolon_not_mem
  have hcell : q.lastField.dropWhile (· = ' ') = (slotText q.result).toList := by
    rw [lastField]
    split
    · rename_i hempty
      rw [hempty]
      rfl
    · exact hplain.dropWhile_blank
  simp only [cells, List.forall_mem_cons] at hblank
  rw [readCells, toList_text h, split_fields h, hlast]
  simp [cells, hblank, hcell]

end Quad

/-! ## 3. Listings -/

namespace Listing

/-- The row of an instruction without the line feed. -/
def line (l : Listing) (quad : Quad) (index : Nat) : List Char :=
  (if l.lineNumbers then (fourDigits index).toList ++ [' '] else []) ++ quad.text.toList

/-- What a row tells about the instruction, without the line number. -/
def readLine (l : Listing) (row : List Char) : List (List Char) :=
  Quad.readCells (if l.lineNumbers then (row.dropWhile (· ≠ ' ')).drop 1 else row)

/-- The cells of a listing, row by row. -/
def readTable (l : Listing) (text : String) : List (List (List Char)) :=
  (((lines text.toList).drop (if l.header then 1 else 0)).dropLast).map l.readLine

/-- A line number has nothing but digits. -/
theorem isDigit_of_mem_fourDigits {n : Nat} {c : Char} (h : c ∈ (fourDigits n).toList) :
    c.isDigit = true := by
  rw [fourDigits, padLeft, String.toList_append, String.toList_ofList, List.mem_append] at h
  rcases h with h | h
  · rw [List.eq_of_mem_replicate h]
    decide
  · rw [Nat.toString_eq_repr, Nat.toList_repr] at h
    exact Nat.isDigit_of_mem_toDigits (by decide) (by decide) h

theorem readLine_line {l : Listing} {quad : Quad} (index : Nat) (h : quad.Printable) :
    l.readLine (l.line quad index) = quad.cells := by
  rw [readLine, line]
  split
  · -- the line number goes up to the first blank
    have hnumber : ∀ c ∈ (fourDigits index).toList, decide (c ≠ ' ') = true := by
      intro c hc
      refine decide_eq_true fun hblank => ?_
      have hdigit := isDigit_of_mem_fourDigits hc
      rw [hblank] at hdigit
      exact absurd hdigit (by decide)
    rw [List.append_assoc, List.dropWhile_append_of_pos hnumber]
    exact Quad.readCells_text h
  · rw [List.nil_append]
    exact Quad.readCells_text h

theorem newline_not_mem_line {l : Listing} {quad : Quad} (index : Nat) (h : quad.Printable) :
    '\n' ∉ l.line quad index := by
  have hnumber : '\n' ∉ (fourDigits index).toList := fun hmem =>
    absurd (isDigit_of_mem_fourDigits hmem) (by decide)
  rw [line]
  split <;> simp [hnumber, Quad.newline_not_mem_text h]

theorem toList_render (l : Listing) (program : Program) :
    (l.render program).toList = (if l.header then l.headerRow else "").toList ++
      (program.quads.toList.zipIdx.map fun x => l.line x.1 x.2).flatMap (· ++ ['\n']) := by
  rw [render, String.toList_append, String.toList_join, List.flatMap_map, List.flatMap_map]
  congr 2
  funext x
  simp only [row, line]
  split <;> simp

/-- The header row is one line. -/
theorem exists_headerRow (l : Listing) :
    ∃ row : List Char, '\n' ∉ row ∧ l.headerRow.toList = row ++ ['\n'] := by
  obtain ⟨header, lineNumbers⟩ := l
  cases lineNumbers with
  | false => exact ⟨columns.toList, by decide, by simp [headerRow]⟩
  | true => exact ⟨"     ".toList ++ columns.toList, by decide, by simp [headerRow]⟩

/-- **Reading a listing gives back the cells of the instructions.** -/
theorem readTable_render (l : Listing) {program : Program}
    (h : ∀ q ∈ program.quads.toList, q.Printable) :
    l.readTable (l.render program) = program.quads.toList.map Quad.cells := by
  have hprintable : ∀ x ∈ program.quads.toList.zipIdx, x.1.Printable :=
    fun x hx => h x.1 (List.fst_mem_of_mem_zipIdx hx)
  have hrows : ∀ row ∈ program.quads.toList.zipIdx.map fun x => l.line x.1 x.2, '\n' ∉ row := by
    intro row hrow
    obtain ⟨x, hx, rfl⟩ := List.mem_map.mp hrow
    exact newline_not_mem_line x.2 (hprintable x hx)
  -- the header row is the first line if there is one
  have hlines : (lines (l.render program).toList).drop (if l.header then 1 else 0) =
      (program.quads.toList.zipIdx.map fun x => l.line x.1 x.2) ++ [[]] := by
    rw [toList_render]
    split
    · obtain ⟨row, hrow, hheader⟩ := l.exists_headerRow
      rw [hheader, List.append_assoc, List.singleton_append, lines, split_append_cons hrow,
        List.drop_one, List.tail_cons, ← lines, lines_flatMap hrows]
    · rw [String.toList_empty, List.nil_append, List.drop_zero, lines_flatMap hrows]
  have hcells : (program.quads.toList.zipIdx.map fun x => l.readLine (l.line x.1 x.2)) =
      program.quads.toList.zipIdx.map fun x => x.1.cells :=
    List.map_congr_left fun x hx => readLine_line x.2 (hprintable x hx)
  rw [readTable, hlines, List.dropLast_concat, List.map_map]
  calc (program.quads.toList.zipIdx.map fun x => l.readLine (l.line x.1 x.2))
      = (program.quads.toList.zipIdx.map Prod.fst).map Quad.cells := by
        rw [hcells, List.map_map]
        rfl
    _ = program.quads.toList.map Quad.cells := by rw [List.zipIdx_map_fst]

end Listing

end ThreeAddress
