import ThreeAddress.Files.System

/-!
# Writing a file

A write changes what stands at one position, and that is where its path leads
(`FileTree.write_cases`). All other positions are left alone (`FileTree.node?_put_of_ne`).

To read the text back one has to look the path up once more, in the new tree. The look-up steps out
of directories only, and what was written stands where no directory was, so it takes the same way as
before (`FileTree.locate_put`).

The last section says what the file operations do to a tree that is passed along.
-/

namespace ThreeAddress

theorem Text.fromUTF8?_toUTF8 (text : String) : String.fromUTF8? text.toUTF8 = some text := by
  unfold String.fromUTF8?
  exact dif_pos text.isValidUTF8

namespace FileTree

variable {t t' : FileTree} {position other : Position} {node : FileNode} {path text : String}

/-! ## 1. Positions -/

theorem node?_root (t : FileTree) : t.node? [] = some .directory :=
  if_pos rfl

theorem node?_put_self (t : FileTree) (node : FileNode) (h : position ≠ []) :
    (t.put position node).node? position = some node := by
  simp [node?, put, h]

theorem node?_put_of_ne (t : FileTree) (node : FileNode) (h : other ≠ position) :
    (t.put position node).node? other = t.node? other := by
  unfold node? put
  split
  · rfl
  · have hfind : (t.nodes.filter (·.1 ≠ position)).find? (·.1 = other) =
        t.nodes.find? (·.1 = other) := by
      rw [List.find?_filter]
      congr 1
      funext entry
      by_cases heq : entry.1 = other
      · simp [heq, h]
      · simp [heq]
    rw [List.find?_cons_of_neg (by simpa using h.symm), hfind]

/-! ## 2. Looking a path up again -/

/-- A way through directories does not pass a position where there was none. -/
theorem follow_put (hnode : t.node? position ≠ some .directory) (node : FileNode)
    {steps : List String} {start finish : Position} (h : t.follow start steps = .ok finish) :
    (t.put position node).follow start steps = .ok finish := by
  induction steps generalizing start with
  | nil => exact h
  | cons step steps ih =>
    rw [follow] at h
    cases hstart : t.node? start with
    | none =>
      rw [hstart] at h
      cases h
    | some found =>
      cases found with
      | file bytes =>
        rw [hstart] at h
        cases h
      | directory =>
        have hne : start ≠ position := by
          rintro rfl
          exact hnode hstart
        rw [hstart] at h
        rw [follow, node?_put_of_ne t node hne, hstart]
        dsimp only at h ⊢
        by_cases hdot : step = "."
        · rw [if_pos hdot] at h ⊢
          exact ih h
        · rw [if_neg hdot] at h ⊢
          by_cases hup : step = ".."
          · rw [if_pos hup] at h ⊢
            exact ih h
          · rw [if_neg hup] at h ⊢
            exact ih h

theorem locate_put (hnode : t.node? position ≠ some .directory) (node : FileNode)
    (h : t.locate path = .ok other) : (t.put position node).locate path = .ok other := by
  unfold locate at h ⊢
  split at h
  · cases h
  · rename_i hpath
    rw [if_neg hpath]
    exact follow_put hnode node h

/-! ## 3. Writing and reading back -/

/-- **What a write does**: the path leads to a position where there is no directory, and the text is
put there. -/
theorem write_cases (h : t.write path text = .ok t') :
    ∃ position, t.locate path = .ok position ∧ t.node? position ≠ some .directory ∧
      Path.asksForDirectory path = false ∧ t' = t.put position (.file text.toUTF8) := by
  unfold write at h
  cases hlocate : t.locate path with
  | error error =>
    rw [hlocate] at h
    cases h
  | ok position =>
    rw [hlocate] at h
    refine ⟨position, rfl, ?_⟩
    dsimp only [bind, Except.bind] at h
    split at h
    · cases h
    · rename_i hnode
      split at h
      · cases h
      · rename_i hslash
        cases h
        exact ⟨hnode, Bool.eq_false_iff.mpr hslash, rfl⟩

/-- What was written is what is read. -/
theorem read_of_write (h : t.write path text = .ok t') : t'.read path = .ok text := by
  obtain ⟨position, hlocate, hnode, hslash, rfl⟩ := write_cases h
  have hroot : position ≠ [] := by
    rintro rfl
    exact hnode t.node?_root
  have hlookup : (t.put position (.file text.toUTF8)).lookup path = .ok (.file text.toUTF8) := by
    rw [lookup, locate_put hnode _ hlocate]
    simp [bind, Except.bind, node?_put_self t _ hroot, hslash]
  rw [read, hlookup]
  simp only [bind, Except.bind, Text.fromUTF8?_toUTF8]

/-! ## 4. A tree that is passed along -/

section

variable {α β : Type}

@[simp] theorem run_pure (a : α) (t : FileTree) : (pure a : Action α).run t = (a, t) :=
  rfl

@[simp] theorem run_bind (x : Action α) (f : α → Action β) (t : FileTree) :
    (x >>= f).run t = (f (x.run t).1).run (x.run t).2 :=
  rfl

@[simp] theorem run_stat (path : String) (t : FileTree) :
    (FileSystem.stat path : Action _).run t = (t.stat path, t) :=
  rfl

@[simp] theorem run_read (path : String) (t : FileTree) :
    (FileSystem.read path : Action _).run t = (t.read path, t) :=
  rfl

theorem run_write_of_ok (h : t.write path text = .ok t') :
    (FileSystem.write path text : Action _).run t = (.ok (), t') := by
  have hget : (get : Action FileTree).run t = (t, t) := rfl
  simp only [FileSystem.write, run_bind, hget, h]
  rfl

theorem run_write_of_error {error : FileError} (h : t.write path text = .error error) :
    (FileSystem.write path text : Action _).run t = (.error error, t) := by
  have hget : (get : Action FileTree).run t = (t, t) := rfl
  simp only [FileSystem.write, run_bind, hget, h]
  rfl

end

end FileTree

end ThreeAddress
