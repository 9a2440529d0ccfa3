import ThreeAddress.Proofs.Files.Writing
import ThreeAddress.Proofs.Text.Pieces

/-!
# Where the parent of a path leads

The parent of a path is computed from its text alone: the last piece goes, and so do the slashes and
single dots in front of it. A look-up knows nothing of this and takes all the steps that are
written. The two agree on paths whose last piece is a name (`Path.NamesFile`). There the steps of
the path are the steps of its parent, some dots and the name (`Path.NamesFile.exists_parent`), and a
dot leads nowhere else.

If the path ends in a slash or in a dot they do not agree. The parent ignores this ending, and the
look-up does not: what it arrives at cannot be written to (`FileTree.namesFile_of_write`).
-/

namespace ThreeAddress

/-! ## 1. The pieces of a path -/

namespace Path

variable {path name : String} {front : List String}

/-- The text of a path: pieces that are each closed by a slash, and one more behind them. -/
structure Written (path : String) (front : List String) (name : String) : Prop where
  text : path.toList = front.flatMap (fun piece => piece.toList ++ ['/']) ++ name.toList
  front_plain : ∀ piece ∈ front, '/' ∉ piece.toList
  name_plain : '/' ∉ name.toList

theorem exists_written (path : String) : ∃ front name, Written path front name := by
  obtain ⟨front, last, htext, hfront, hlast⟩ := Text.exists_pieces '/' path.toList
  refine ⟨front.map String.ofList, String.ofList last, ?_, ?_, ?_⟩
  · rw [htext, List.flatMap_map]
    simp only [String.toList_ofList]
  · intro piece hpiece
    obtain ⟨cs, hcs, rfl⟩ := List.mem_map.mp hpiece
    rw [String.toList_ofList]
    exact hfront cs hcs
  · rwa [String.toList_ofList]

theorem written_intercalate (hfront : ∀ piece ∈ front, '/' ∉ piece.toList)
    (hname : '/' ∉ name.toList) : Written ("/".intercalate (front ++ [name])) front name := by
  refine ⟨?_, hfront, hname⟩
  have hslash : "/".toList = ['/'] := rfl
  rw [String.toList_intercalate, hslash, List.map_append, List.map_singleton,
    Text.intercalate_concat, List.flatMap_map]

namespace Written

theorem absolute (h : Written path front name) : Written ("/" ++ path) ("" :: front) name where
  text := by
    rw [String.toList_append, h.text, List.flatMap_cons, List.append_assoc]
    rfl
  front_plain := List.forall_mem_cons.mpr ⟨List.not_mem_nil, h.front_plain⟩
  name_plain := h.name_plain

theorem pieces_eq (h : Written path front name) : pieces path = front ++ [name] := by
  have hfront : ∀ piece ∈ front.map String.toList, '/' ∉ piece := by
    intro piece hpiece
    obtain ⟨s, hs, rfl⟩ := List.mem_map.mp hpiece
    exact h.front_plain s hs
  have hsplit := Text.split_flatMap hfront h.name_plain
  rw [List.flatMap_map, ← h.text] at hsplit
  rw [pieces, hsplit, List.map_append, List.map_map]
  simp [Function.comp_def]

theorem steps_eq (h : Written path front name) :
    steps path = (front ++ [name]).filter (· ≠ "") := by
  rw [steps, h.pieces_eq]

theorem isAbsolute_iff (h : Written path front name) :
    isAbsolute path = true ↔ front.head? = some "" := by
  rw [isAbsolute, h.text, beq_iff_eq]
  cases front with
  | nil =>
    rw [List.flatMap_nil, List.nil_append]
    refine ⟨fun hhead => absurd (List.mem_of_head? hhead) h.name_plain, fun hhead => ?_⟩
    cases hhead
  | cons piece front =>
    rw [List.flatMap_cons, List.head?_cons, Option.some.injEq, ← String.toList_eq_nil_iff]
    have hplain := h.front_plain piece List.mem_cons_self
    cases hpiece : piece.toList with
    | nil => exact ⟨fun _ => rfl, fun _ => rfl⟩
    | cons c cs =>
      rw [hpiece] at hplain
      refine ⟨fun hhead => ?_, fun hnil => ?_⟩
      · cases hhead
        exact absurd List.mem_cons_self hplain
      · cases hnil

theorem asksForDirectory_iff (h : Written path front name) :
    asksForDirectory path = true ↔ name = "" ∧ front ≠ [] := by
  rw [asksForDirectory, h.text, beq_iff_eq, ← String.toList_eq_nil_iff]
  have hplain := h.name_plain
  generalize name.toList = cs at hplain
  rcases List.eq_nil_or_concat cs with rfl | ⟨cs, c, rfl⟩
  · rw [List.append_nil]
    rcases List.eq_nil_or_concat front with rfl | ⟨front, piece, rfl⟩
    · simp
    · simp
  · rw [List.concat_eq_append] at hplain ⊢
    rw [← List.append_assoc, List.getLast?_concat]
    refine ⟨fun hlast => ?_, fun hnil => absurd hnil.1 (by simp)⟩
    cases hlast
    exact absurd (List.mem_append_right cs List.mem_cons_self) hplain

theorem eq_empty (h : Written path [] "") : path = "" :=
  String.toList_inj.mp h.text

end Written

/-! ## 2. Pieces that do not count -/

/-- At the end of a path, only empty pieces and dots do not count. -/
theorem exists_dropIdle (relative : Bool) (pieces : List String) :
    ∃ idle, pieces = dropIdle relative pieces ++ idle ∧
      ∀ piece ∈ idle, piece = "" ∨ piece = "." := by
  induction pieces generalizing relative with
  | nil => exact ⟨[], rfl, fun piece hpiece => absurd hpiece List.not_mem_nil⟩
  | cons piece rest ih =>
    obtain ⟨idle, hrest, hidle⟩ := ih false
    rw [dropIdle]
    cases hkept : dropIdle false rest with
    | cons next kept =>
      rw [hkept] at hrest
      exact ⟨idle, by rw [List.cons_append, ← hrest], hidle⟩
    | nil =>
      rw [hkept, List.nil_append] at hrest
      subst hrest
      by_cases hcounts : piece ≠ "" ∧ (relative ∨ piece ≠ ".")
      · exact ⟨rest, by rw [if_pos hcounts, List.singleton_append], hidle⟩
      · have hpiece : piece = "" ∨ piece = "." := by
          by_cases hempty : piece = ""
          · exact .inl hempty
          · exact .inr (Decidable.byContradiction fun hdot => hcounts ⟨hempty, .inr hdot⟩)
        exact ⟨piece :: rest, by rw [if_neg hcounts, List.nil_append],
          List.forall_mem_cons.mpr ⟨hpiece, hidle⟩⟩

theorem dropIdle_concat (hname : name ≠ "") (hdot : name ≠ ".") (relative : Bool)
    (front : List String) : dropIdle relative (front ++ [name]) = front ++ [name] := by
  induction front generalizing relative with
  | nil => simp [dropIdle, hname, hdot]
  | cons piece front ih =>
    rw [List.cons_append, dropIdle, ih false]
    cases front <;> rfl

/-! ## 3. The parent -/

/-- The last piece of the path is a name: the path ends neither in a slash nor in a single dot, and
it is not empty. -/
def NamesFile (path : String) : Prop :=
  ∃ name, (pieces path).getLast? = some name ∧ name ≠ "" ∧ name ≠ "."

theorem Written.namesFile_iff (h : Written path front name) :
    NamesFile path ↔ name ≠ "" ∧ name ≠ "." := by
  rw [NamesFile, h.pieces_eq, List.getLast?_concat]
  simp

theorem NamesFile.ne_empty (h : NamesFile path) : path ≠ "" := by
  rintro rfl
  obtain ⟨name, hlast, hname, -⟩ := h
  cases hlast
  exact hname rfl

theorem NamesFile.asksForDirectory_eq_false (h : NamesFile path) :
    asksForDirectory path = false := by
  obtain ⟨front, name, hwritten⟩ := exists_written path
  rw [Bool.eq_false_iff, ne_eq, hwritten.asksForDirectory_iff]
  exact fun hasks => (hwritten.namesFile_iff.mp h).1 hasks.1

section

variable {kept : List String}

theorem steps_intercalate (h : ∀ piece ∈ kept, '/' ∉ piece.toList) :
    steps ("/".intercalate kept) = kept.filter (· ≠ "") := by
  rcases List.eq_nil_or_concat kept with rfl | ⟨front, name, rfl⟩
  · rfl
  · rw [List.concat_eq_append, List.forall_mem_append, List.forall_mem_singleton] at h
    rw [List.concat_eq_append, (written_intercalate h.1 h.2).steps_eq]

theorem isAbsolute_intercalate (h : ∀ piece ∈ kept, '/' ∉ piece.toList)
    (hhead : kept.head? ≠ some "") : isAbsolute ("/".intercalate kept) = false := by
  rcases List.eq_nil_or_concat kept with rfl | ⟨front, name, rfl⟩
  · rfl
  · rw [List.concat_eq_append, List.forall_mem_append, List.forall_mem_singleton] at h
    rw [List.concat_eq_append, Bool.eq_false_iff, ne_eq,
      (written_intercalate h.1 h.2).isAbsolute_iff]
    intro hfront
    rw [List.concat_eq_append, List.head?_append, hfront] at hhead
    exact hhead rfl

theorem isAbsolute_append (path : String) : isAbsolute ("/" ++ path) = true := by
  rw [isAbsolute, String.toList_append]
  rfl

theorem steps_append (path : String) : steps ("/" ++ path) = steps path := by
  obtain ⟨front, name, h⟩ := exists_written path
  rw [h.absolute.steps_eq, h.steps_eq]
  rfl

/-- The pieces from which the parent is made: a slash at the start is set aside, with the empty
piece in front of it. -/
theorem Written.exists_body (h : Written path front name) :
    ∃ body, (if !isAbsolute path then pieces path else (pieces path).tail) = body ++ [name] ∧
      (∀ piece ∈ body, '/' ∉ piece.toList) ∧ front.filter (· ≠ "") = body.filter (· ≠ "") ∧
      (isAbsolute path = false → body.head? ≠ some "") := by
  have habsolute := h.isAbsolute_iff
  have hplain := h.front_plain
  rw [h.pieces_eq]
  cases hpath : isAbsolute path with
  | false =>
    refine ⟨front, rfl, hplain, rfl, fun _ hhead => ?_⟩
    rw [hpath] at habsolute
    cases habsolute.mpr hhead
  | true =>
    obtain ⟨body, rfl⟩ := List.head?_eq_some_iff.mp (habsolute.mp hpath)
    exact ⟨body, rfl, (List.forall_mem_cons.mp hplain).2, rfl, fun hrelative => by cases hrelative⟩

theorem parent?_of_body {body : List String}
    (hbody : (if !isAbsolute path then pieces path else (pieces path).tail) = body ++ [name])
    (hname : name ≠ "") (hdot : name ≠ ".") :
    parent? path =
      let parent := "/".intercalate (dropIdle (!isAbsolute path) body)
      some (if !isAbsolute path then parent else "/" ++ parent) := by
  have hne : body ++ [name] ≠ [] := by simp
  obtain ⟨first, more, hcons⟩ := List.exists_cons_of_ne_nil hne
  unfold parent?
  dsimp only
  rw [hbody, dropIdle_concat hname hdot, hcons]
  dsimp only
  rw [← hcons, List.dropLast_concat]

/-- **The parent of a path that ends in a name**: the steps of the path are those of the parent,
some dots and a name, and they start at the same place. -/
theorem NamesFile.exists_parent (h : NamesFile path) :
    ∃ parent dots name, parent? path = some parent ∧ isAbsolute parent = isAbsolute path ∧
      steps path = steps parent ++ (dots ++ [name]) ∧ ∀ dot ∈ dots, dot = "." := by
  obtain ⟨front, name, hwritten⟩ := exists_written path
  obtain ⟨hname, hdot⟩ := hwritten.namesFile_iff.mp h
  obtain ⟨body, hbody, hplain, hfilter, hhead⟩ := hwritten.exists_body
  obtain ⟨idle, hidle, hdots⟩ := exists_dropIdle (!isAbsolute path) body
  have hparent := parent?_of_body hbody hname hdot
  generalize dropIdle (!isAbsolute path) body = kept at hidle hparent
  subst hidle
  have hkept : ∀ piece ∈ kept, '/' ∉ piece.toList := (List.forall_mem_append.mp hplain).1
  have hsteps : steps path = steps ("/".intercalate kept) ++ (idle.filter (· ≠ "") ++ [name]) := by
    rw [hwritten.steps_eq, List.filter_append, hfilter, List.filter_append, steps_intercalate hkept,
      List.append_assoc]
    simp [hname]
  have hidle : ∀ dot ∈ idle.filter (· ≠ ""), dot = "." := by
    intro dot hmem
    obtain ⟨hmem, hne⟩ := List.mem_filter.mp hmem
    exact (hdots dot hmem).resolve_left (of_decide_eq_true hne)
  cases habsolute : isAbsolute path with
  | false =>
    rw [habsolute] at hparent
    have hfirst : kept.head? ≠ some "" := by
      intro hfirst
      apply hhead habsolute
      rw [List.head?_append, hfirst, Option.some_or]
    exact ⟨_, _, name, hparent, isAbsolute_intercalate hkept hfirst, hsteps, hidle⟩
  | true =>
    rw [habsolute] at hparent
    exact ⟨_, _, name, hparent, isAbsolute_append _, (steps_append _).symm ▸ hsteps, hidle⟩

end

end Path

/-! ## 4. Following steps -/

namespace FileTree

variable {t : FileTree} {start finish position : Position} {step : String}
  {steps more dots : List String}

/-- Where a step out of a directory arrives. -/
def arrive (position : Position) (step : String) : Position :=
  if step = "." then position
  else if step = ".." then position.dropLast
  else position ++ [step]

/-- **What a step can do**: it goes on from where it arrives, or there is no directory and the way
ends. -/
theorem follow_cons_cases (t : FileTree) (start : Position) (step : String) :
    (t.node? start = some .directory ∧
      ∀ steps, t.follow start (step :: steps) = t.follow (arrive start step) steps) ∨
    (t.node? start ≠ some .directory ∧ ∃ error, (error = .notFound ∨ error = .notADirectory) ∧
      ∀ steps, t.follow start (step :: steps) = .error error) := by
  unfold arrive
  cases hnode : t.node? start with
  | none =>
    refine .inr ⟨by simp, _, .inl rfl, fun steps => ?_⟩
    rw [follow, hnode]
  | some node =>
    cases node with
    | file bytes =>
      refine .inr ⟨by simp, _, .inr rfl, fun steps => ?_⟩
      rw [follow, hnode]
    | directory =>
      refine .inl ⟨rfl, fun steps => ?_⟩
      rw [follow, hnode]
      dsimp only
      split
      · rfl
      · split <;> rfl

theorem follow_cons_of_directory (h : t.node? start = some .directory) :
    t.follow start (step :: steps) = t.follow (arrive start step) steps := by
  obtain ⟨-, hgoes⟩ | ⟨hnode, -⟩ := follow_cons_cases t start step
  · exact hgoes steps
  · exact absurd h hnode

theorem node?_of_follow_cons (h : t.follow start (step :: steps) = .ok finish) :
    t.node? start = some .directory := by
  obtain ⟨hnode, -⟩ | ⟨-, error, -, hends⟩ := follow_cons_cases t start step
  · exact hnode
  · cases (hends steps).symm.trans h

theorem follow_append (t : FileTree) (start : Position) (steps more : List String) :
    t.follow start (steps ++ more) =
      t.follow start steps >>= fun position => t.follow position more := by
  induction steps generalizing start with
  | nil => rfl
  | cons step steps ih =>
    rw [List.cons_append]
    obtain ⟨-, hgoes⟩ | ⟨-, error, -, hends⟩ := follow_cons_cases t start step
    · rw [hgoes, hgoes, ih]
    · rw [hends, hends]
      rfl

theorem follow_append_of_ok (h : t.follow start steps = .ok position) :
    t.follow start (steps ++ more) = t.follow position more := by
  rw [follow_append, h]
  rfl

theorem follow_dot_iff :
    t.follow start ["."] = .ok finish ↔ t.node? start = some .directory ∧ finish = start := by
  constructor
  · intro h
    have hnode := node?_of_follow_cons h
    rw [follow_cons_of_directory hnode] at h
    cases h
    exact ⟨hnode, rfl⟩
  · rintro ⟨hnode, rfl⟩
    exact follow_cons_of_directory hnode

theorem follow_dots (h : t.node? start = some .directory) (hdots : ∀ dot ∈ dots, dot = ".") :
    t.follow start (dots ++ more) = t.follow start more := by
  induction dots with
  | nil => rfl
  | cons dot dots ih =>
    obtain ⟨rfl, hrest⟩ := List.forall_mem_cons.mp hdots
    rw [List.cons_append, follow_cons_of_directory h]
    exact ih hrest

theorem follow_error {error : FileError} (h : t.follow start steps = .error error) :
    error = .notFound ∨ error = .notADirectory := by
  induction steps generalizing start with
  | nil => cases h
  | cons step steps ih =>
    obtain ⟨-, hgoes⟩ | ⟨-, error', herror, hends⟩ := follow_cons_cases t start step
    · exact ih ((hgoes steps).symm.trans h)
    · cases (hends steps).symm.trans h
      exact herror

/-! ## 5. What a path to write to looks like -/

variable {path text : String} {t' : FileTree} {error : FileError}

theorem locate_of_ne_empty (h : path ≠ "") :
    t.locate path =
      t.follow (if Path.isAbsolute path then [] else t.workingDirectory) (Path.steps path) :=
  if_neg h

theorem stat_eq_directory_iff :
    t.stat path = .ok .directory ↔
      ∃ position, t.locate path = .ok position ∧ t.node? position = some .directory := by
  unfold stat lookup
  cases t.locate path with
  | error error => simp [bind, Except.bind]
  | ok position =>
    simp only [bind, Except.bind, Except.ok.injEq, exists_eq_left']
    cases t.node? position with
    | none => simp
    | some node =>
      cases node with
      | directory => simp [FileNode.kind, pure, Except.pure]
      | file bytes =>
        cases Path.asksForDirectory path <;> simp [FileNode.kind, pure, Except.pure]

theorem write_of_locate (hlocate : t.locate path = .ok position)
    (hnode : t.node? position ≠ some .directory)
    (hslash : Path.asksForDirectory path = false) (text : String) :
    t.write path text = .ok (t.put position (.file text.toUTF8)) := by
  unfold write
  rw [hlocate]
  dsimp only [bind, Except.bind]
  split
  · rename_i hdirectory
    exact absurd hdirectory hnode
  · rw [hslash]
    rfl

/-- The look-up of a path that ends in a dot arrives at a directory, or not at all. -/
theorem node?_of_locate_dot {front : List String} (h : Path.Written path front ".")
    (hlocate : t.locate path = .ok position) : t.node? position = some .directory := by
  have hpath : path ≠ "" := by
    rintro rfl
    cases hlocate
  have hsteps : Path.steps path = front.filter (· ≠ "") ++ ["."] := by
    rw [h.steps_eq, List.filter_append]
    rfl
  rw [locate_of_ne_empty hpath, hsteps, follow_append] at hlocate
  generalize t.follow _ (front.filter (· ≠ "")) = before at hlocate
  cases before with
  | error error => cases hlocate
  | ok last =>
    obtain ⟨hnode, rfl⟩ := follow_dot_iff.mp hlocate
    exact hnode

/-- Nothing can be written to a path that does not end in a name. -/
theorem namesFile_of_write (h : t.write path text = .ok t') : Path.NamesFile path := by
  obtain ⟨position, hlocate, hnode, hslash, -⟩ := write_cases h
  obtain ⟨front, name, hwritten⟩ := Path.exists_written path
  refine hwritten.namesFile_iff.mpr ⟨?_, ?_⟩
  · rintro rfl
    cases front with
    | nil =>
      rw [hwritten.eq_empty] at hlocate
      cases hlocate
    | cons piece front =>
      have hasks := hwritten.asksForDirectory_iff.mpr ⟨rfl, List.cons_ne_nil piece front⟩
      rw [hasks] at hslash
      cases hslash
  · rintro rfl
    exact hnode (node?_of_locate_dot hwritten hlocate)

/-- The ways in which a write can fail. -/
theorem write_error (h : t.write path text = .error error) :
    error = .notFound ∨ error = .notADirectory ∨ error = .isADirectory := by
  unfold write at h
  cases hlocate : t.locate path with
  | error error' =>
    rw [hlocate] at h
    cases h
    unfold locate at hlocate
    split at hlocate
    · cases hlocate
      exact .inl rfl
    · exact (follow_error hlocate).imp_right .inl
  | ok position =>
    rw [hlocate] at h
    dsimp only [bind, Except.bind] at h
    refine .inr (.inr ?_)
    split at h
    · cases h
      rfl
    · split at h <;> cases h
      rfl

end FileTree

end ThreeAddress
