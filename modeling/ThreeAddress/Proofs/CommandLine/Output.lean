import ThreeAddress.Proofs.CommandLine.Effects
import ThreeAddress.Proofs.Files.Paths

/-!
# Listings that can be written

A compiler is set up only if the file for its listings passes a check: it is not a directory, and
the directory in which it is to stand is there. The check looks at the parent of the path, and the
listing is written to the path itself. If the path ends in a name, the look-up of the path comes
through this very directory (`Compiler.exists_locate`), so that the listing can be written.

A path that ends in a slash or in a dot can pass the check too, since its parent is the same with
and without this ending. But no listing can be written there.
-/

namespace ThreeAddress

namespace Compiler

open FileTree
open CommandLine (echoTree read_echoTree exists_ofSource_echoSource)

variable {t : FileTree} {path parent : String} {position : Position}

theorem outputDirectory_of_parent? (h : Path.parent? path = some parent) :
    outputDirectory path = if parent = "" then "." else parent := by
  unfold outputDirectory
  rw [h]
  split
  · rename_i hnone
    cases hnone
  · rename_i hempty
    cases hempty
    rfl
  · rename_i hne heq
    cases heq
    rw [if_neg hne]

/-- The directory of the check is where the steps of the parent lead. A parent without steps is the
working directory, for which the check has a dot. -/
theorem follow_of_locate_outputDirectory (hparent : Path.parent? path = some parent)
    (h : t.locate (outputDirectory path) = .ok position) :
    t.follow (if Path.isAbsolute parent then [] else t.workingDirectory) (Path.steps parent) =
      .ok position := by
  rw [outputDirectory_of_parent? hparent] at h
  by_cases hempty : parent = ""
  · subst hempty
    obtain ⟨-, rfl⟩ :=
      follow_dot_iff.mp (show t.follow t.workingDirectory ["."] = .ok position from h)
    rfl
  · rwa [if_neg hempty, locate_of_ne_empty hempty] at h

theorem exists_locate (hdirectory : t.stat (outputDirectory path) = .ok .directory)
    (hpath : Path.NamesFile path) : ∃ position, t.locate path = .ok position := by
  obtain ⟨parent, dots, name, hparent, habsolute, hsteps, hdots⟩ := hpath.exists_parent
  obtain ⟨directory, hlocate, hnode⟩ := stat_eq_directory_iff.mp hdirectory
  have hfollow := follow_of_locate_outputDirectory hparent hlocate
  rw [habsolute] at hfollow
  refine ⟨arrive directory name, ?_⟩
  calc t.locate path
    _ = t.follow directory (dots ++ [name]) := by
      rw [locate_of_ne_empty hpath.ne_empty, hsteps, follow_append_of_ok hfollow]
    _ = t.follow directory [name] := follow_dots hnode hdots
    _ = .ok (arrive directory name) := follow_cons_of_directory hnode

theorem OutputFits.exists_write {c : Compiler} (h : c.OutputFits t) (houtput : c.output = some path)
    (hpath : Path.NamesFile path) (text : String) : ∃ t', t.write path text = .ok t' := by
  obtain ⟨hfile, hdirectory⟩ := h path houtput
  obtain ⟨position, hlocate⟩ := exists_locate hdirectory hpath
  have hnode : t.node? position ≠ some .directory :=
    fun hnode => hfile (stat_eq_directory_iff.mpr ⟨position, hlocate, hnode⟩)
  exact ⟨_, write_of_locate hlocate hnode hpath.asksForDirectory_eq_false text⟩

/-- **Which checked paths can be written to.** A compiler that could be set up writes the listing of
every program if the path for its listings ends in a name, and the listing can be read back from
there. If the path ends in a slash or in a dot, or is empty, every write fails, and the files are as
they were. -/
theorem writes_iff_namesFile {c c' : Compiler}
    (hconfigured : ((c.configure : Action _).run t).1 = .ok c')
    (houtput : c.output = some path) (analysis : Analysis) :
    (Path.NamesFile path →
      ∃ t', (c'.writeListing analysis path : Action _).run t =
          (⟨.ok (), [⟨.wrote analysis.program.size path, none⟩]⟩, t') ∧
        t'.read path = .ok (c'.emit analysis)) ∧
    (¬Path.NamesFile path →
      ∃ error, (error = .notFound ∨ error = .notADirectory ∨ error = .isADirectory) ∧
        (c'.writeListing analysis path : Action _).run t =
          (⟨.error ⟨.file error, some path⟩, []⟩, t)) := by
  obtain ⟨rfl, hfits⟩ := answer_configure_iff.mp hconfigured
  constructor
  · intro hpath
    obtain ⟨t', hwrite⟩ := hfits.exists_write houtput hpath (c'.emit analysis)
    exact ⟨t', run_writeListing_of_ok hwrite, read_of_write hwrite⟩
  · intro hpath
    cases hwrite : t.write path (c'.emit analysis) with
    | ok t' => exact absurd (namesFile_of_write hwrite) hpath
    | error error => exact ⟨error, write_error hwrite, run_writeListing_of_error hwrite⟩

/-- The compiler that writes its listings to a file, in the usual form. -/
def writingTo (path : String) : Compiler :=
  { output := some path }

theorem writes_iff_namesFile_beside_source :
    (((writingTo ".//list").configure : Action _).run echoTree).1 = .ok (writingTo ".//list") ∧
    ∃ analysis, ((compile "p" : Action _).run echoTree).1.answer = .ok analysis ∧
      ∃ t', ((writingTo ".//list").writeListing analysis ".//list" : Action _).run echoTree =
          (⟨.ok (), [⟨.wrote analysis.program.size ".//list", none⟩]⟩, t') ∧
        t'.read ".//list" = .ok ((writingTo ".//list").emit analysis) := by
  obtain ⟨analysis, hanalysis⟩ := exists_ofSource_echoSource
  have hconfigured :
      (((writingTo ".//list").configure : Action _).run echoTree).1 =
        .ok (writingTo ".//list") := rfl
  refine ⟨hconfigured, analysis, answer_compile_iff.mpr ⟨_, read_echoTree, hanalysis⟩, ?_⟩
  exact (writes_iff_namesFile hconfigured rfl analysis).1 ⟨"list", rfl, by decide, by decide⟩

/-- A path with a slash at its end passes the check although nothing stands there, and then the
listing of a program that compiles cannot be written to it. -/
theorem checked_output_may_be_unwritable :
    (((writingTo "out/").configure : Action _).run echoTree).1 = .ok (writingTo "out/") ∧
    ∃ analysis, ((compile "p" : Action _).run echoTree).1.answer = .ok analysis ∧
      ((writingTo "out/").writeListing analysis "out/" : Action _).run echoTree =
        (⟨.error ⟨.file .isADirectory, some "out/"⟩, []⟩, echoTree) := by
  obtain ⟨analysis, hanalysis⟩ := exists_ofSource_echoSource
  refine ⟨rfl, analysis, answer_compile_iff.mpr ⟨_, read_echoTree, hanalysis⟩, ?_⟩
  exact run_writeListing_of_error rfl

end Compiler

end ThreeAddress
