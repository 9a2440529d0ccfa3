import ThreeAddress.CommandLine.Run
import ThreeAddress.Proofs.Files.Writing

/-!
# What a run does to the files

A run looks at the files to check where the listing goes and to read the source, and it touches them
in one place: it writes the listing, last of all, when nothing can go wrong any more but the write
itself. So a run that fails has touched nothing, and a run that succeeds has written one file or
none.

Most actions of a run only look (`FileTree.Looks`), which is said once for each of them. How a run
can succeed, with what it prints and the files it leaves, is `CommandLine.Succeeds`, with one case
for each of the three ways a run can end well. It speaks of the source, the tokens and the program,
and not of the steps that a run takes. `CommandLine.report_cases` ties the two together: a run
either succeeds in one of these ways, or no such way is open to it and it fails.
-/

namespace ThreeAddress

/-! ## 1. Looking -/

namespace FileTree

variable {α β : Type}

/-- The action leaves the files as they are. -/
def Looks (x : Action α) : Prop :=
  ∀ t, (x.run t).2 = t

theorem looks_pure (a : α) : Looks (pure a) := fun _ => rfl

theorem Looks.bind {x : Action α} {f : α → Action β} (hx : Looks x) (hf : ∀ a, Looks (f a)) :
    Looks (x >>= f) := by
  intro t
  rw [run_bind, hf, hx]

theorem looks_stat (path : String) : Looks (FileSystem.stat path) := fun _ => rfl

theorem looks_read (path : String) : Looks (FileSystem.read path) := fun _ => rfl

end FileTree

namespace Compiler

open FileTree

theorem looks_checkOutput (path : String) : Looks (checkOutput path) := by
  refine (looks_stat path).bind fun found => ?_
  split
  · exact looks_pure _
  · refine (looks_stat _).bind fun directory => ?_
    split <;> exact looks_pure _

theorem looks_configure (c : Compiler) : Looks c.configure := by
  unfold configure
  split
  · exact looks_pure _
  · exact (looks_checkOutput _).bind fun verdict => looks_pure _

theorem looks_onFile {α : Type} (treat : String → Except CompileError α × List Event)
    (path : String) : Looks (onFile treat path) := by
  refine (looks_read path).bind fun found => ?_
  split <;> exact looks_pure _

theorem looks_compile (path : String) : Looks (compile path) :=
  (looks_onFile compileSource path).bind fun _ => looks_pure _

theorem looks_tokenize (path : String) : Looks (tokenize path) :=
  (looks_onFile tokenizeSource path).bind fun _ => looks_pure _

/-! ## 2. Answers -/

variable {t : FileTree} {path source : String}

theorem answer_onFile_iff {α : Type} {treat : String → Except CompileError α × List Event} {a : α} :
    ((onFile treat path : Action _).run t).1.1 = .ok a ↔
      ∃ source, t.read path = .ok source ∧ (treat source).1 = .ok a := by
  rw [onFile, run_bind, run_read]
  cases t.read path with
  | error error => simp only [run_pure, reduceCtorEq, false_and, exists_const]
  | ok source =>
    simp only [run_pure, Except.ok.injEq, exists_eq_left']
    cases (treat source).1 with
    | error error =>
      constructor <;> intro h <;> cases h
    | ok done => exact Iff.rfl

theorem compileSource_iff {analysis : Analysis} :
    (compileSource source).1 = .ok analysis ↔ (Analysis.ofSource source).1 = .ok analysis := by
  unfold compileSource
  rcases Analysis.ofSource source with ⟨(_ | _) | _, events⟩ <;> simp

theorem tokenizeSource_iff {tokens : List Token} :
    (tokenizeSource source).1 = .ok tokens ↔
    (Lexer.ofSource source).tokens.answer = .ok tokens := by
  unfold tokenizeSource
  cases hanswer : (Lexer.ofSource source).tokens.answer with
  | ok tokens => simp [hanswer]
  | error error =>
    simp only [hanswer]
    split <;> simp

theorem answer_compile_iff {analysis : Analysis} :
    ((compile path : Action _).run t).1.answer = .ok analysis ↔
      ∃ source, t.read path = .ok source ∧ (Analysis.ofSource source).1 = .ok analysis := by
  have hanswer : ((compile path : Action _).run t).1.answer =
      ((onFile compileSource path : Action _).run t).1.1 :=
    rfl
  rw [hanswer, answer_onFile_iff]
  simp only [compileSource_iff]

theorem answer_tokenize_iff {tokens : List Token} :
    ((tokenize path : Action _).run t).1.answer = .ok tokens ↔
      ∃ source, t.read path = .ok source ∧ (Lexer.ofSource source).tokens.answer = .ok tokens := by
  have hanswer : ((tokenize path : Action _).run t).1.answer =
      ((onFile tokenizeSource path : Action _).run t).1.1 := rfl
  rw [hanswer, answer_onFile_iff]
  simp only [tokenizeSource_iff]

theorem answer_checkOutput_iff :
    ((checkOutput path : Action _).run t).1 = .ok () ↔
      t.stat path ≠ .ok .directory ∧ t.stat (outputDirectory path) = .ok .directory := by
  rw [checkOutput, run_bind, run_stat]
  by_cases hpath : t.stat path = .ok .directory
  · simp only [hpath, run_pure, reduceCtorEq, ne_eq, not_true_eq_false, false_and]
  · simp only [hpath, ne_eq, not_false_eq_true, true_and]
    rw [run_bind, run_stat]
    cases t.stat (outputDirectory path) with
    | error error => simp only [run_pure, reduceCtorEq]
    | ok kind => cases kind <;> simp only [run_pure, reduceCtorEq, Except.ok.injEq]

/-- The path for listings, if there is one, does not lead to a directory, but it would stand in
one. -/
def OutputFits (c : Compiler) (t : FileTree) : Prop :=
  ∀ path, c.output = some path →
    t.stat path ≠ .ok .directory ∧ t.stat (outputDirectory path) = .ok .directory

theorem answer_configure_iff {c c' : Compiler} :
    ((c.configure : Action _).run t).1 = .ok c' ↔ c' = c ∧ c.OutputFits t := by
  unfold configure OutputFits
  cases houtput : c.output with
  | none =>
    simp only [run_pure]
    simp [eq_comm]
  | some path =>
    simp only [run_bind, run_pure, Option.some.injEq, forall_eq', ← answer_checkOutput_iff]
    cases ((checkOutput path : Action _).run t).1 with
    | error error => simp [Except.map]
    | ok done => simp [Except.map, eq_comm]

theorem run_writeListing_of_ok {c : Compiler} {analysis : Analysis} {t' : FileTree}
    (h : t.write path (c.emit analysis) = .ok t') :
    (c.writeListing analysis path : Action _).run t =
      (⟨.ok (), [⟨.wrote analysis.program.size path, none⟩]⟩, t') := by
  rw [writeListing, run_bind, run_write_of_ok h]
  rfl

theorem run_writeListing_of_error {c : Compiler} {analysis : Analysis} {error : FileError}
    (h : t.write path (c.emit analysis) = .error error) :
    (c.writeListing analysis path : Action _).run t =
      (⟨.error ⟨.file error, some path⟩, []⟩, t) := by
  rw [writeListing, run_bind, run_write_of_error h]
  rfl

end Compiler

/-! ## 3. Runs -/

namespace CommandLine

open FileTree

variable {a : Arguments} {t t' t₁ : FileTree} {printed printed₁ : Printout}

/-- How a run can succeed, with what there is to print and the files it leaves: the tokens of the
source are printed, or the listing of its program is printed, or the listing is written to a
file. -/
inductive Succeeds (a : Arguments) (t : FileTree) : Printout → FileTree → Prop
  | tokens {source : String} {tokens : List Token} (fits : (compiler a).OutputFits t)
      (wanted : a.tokens = true) (read : t.read a.source = .ok source)
      (lexed : (Lexer.ofSource source).tokens.answer = .ok tokens) : Succeeds a t (.tokens tokens) t
  | printed {source : String} {analysis : Analysis} (wanted : a.tokens = false)
      (output : a.output = none)
      (read : t.read a.source = .ok source)
      (analyzed : (Analysis.ofSource source).1 = .ok analysis) :
      Succeeds a t (.listing (Listing.render ⟨!a.noHeader, a.lineNumbers⟩ analysis.program)) t
  | written {source path : String} {analysis : Analysis} {t' : FileTree}
      (fits : (compiler a).OutputFits t)
      (wanted : a.tokens = false) (output : a.output = some path)
      (read : t.read a.source = .ok source) (analyzed : (Analysis.ofSource source).1 = .ok analysis)
      (write : t.write path
        (Listing.render ⟨!a.noHeader, a.lineNumbers⟩ analysis.program) = .ok t') :
      Succeeds a t .nothing t'

theorem Succeeds.unique (h : Succeeds a t printed t') (h₁ : Succeeds a t printed₁ t₁) :
    printed₁ = printed ∧ t₁ = t' := by
  cases h <;> cases h₁ <;> simp_all

theorem Succeeds.tokens_cases (h : Succeeds a t printed t') (wanted : a.tokens = true) :
    ∃ source tokens,
      t.read a.source = .ok source ∧ (Lexer.ofSource source).tokens.answer = .ok tokens ∧
      printed = .tokens tokens := by
  cases h with
  | tokens _ _ read lexed => exact ⟨_, _, read, lexed, rfl⟩
  | printed wanted' | written _ wanted' =>
    rw [wanted] at wanted'
    cases wanted'

theorem Succeeds.compile_cases (h : Succeeds a t printed t') (wanted : a.tokens = false) :
    ∃ source analysis, t.read a.source = .ok source ∧ (Analysis.ofSource source).1 = .ok analysis ∧
      ((a.output = none ∧
          printed = .listing (Listing.render ⟨!a.noHeader, a.lineNumbers⟩ analysis.program)) ∨
        ∃ path, a.output = some path ∧
          t.write path
            (Listing.render ⟨!a.noHeader, a.lineNumbers⟩ analysis.program) = .ok t') := by
  cases h with
  | tokens _ wanted' =>
    rw [wanted] at wanted'
    cases wanted'
  | printed _ output read analyzed => exact ⟨_, _, read, analyzed, .inl ⟨output, rfl⟩⟩
  | written _ _ output read analyzed write => exact ⟨_, _, read, analyzed, .inr ⟨_, output, write⟩⟩

/-- The run succeeds in one of the ways that there are, or none is open to it, and then it fails and
leaves the files as they are. -/
def Settled (a : Arguments) (t : FileTree) (done : Report × FileTree) : Prop :=
  (∃ log printed, done.1 = ⟨log, .ok printed⟩ ∧ Succeeds a t printed done.2) ∨
  ((∃ log message, done = (⟨log, .error message⟩, t)) ∧ ∀ printed t', ¬Succeeds a t printed t')

theorem settled_reportTokens (fits : (compiler a).OutputFits t) (wanted : a.tokens = true)
    (log : List LogEntry) : Settled a t ((reportTokens a log : Action _).run t) := by
  have hanswer := @Compiler.answer_tokenize_iff t a.source
  rw [reportTokens, run_bind, Compiler.looks_tokenize]
  generalize ((Compiler.tokenize a.source : Action _).run t).1 = logged at hanswer ⊢
  obtain ⟨error | tokens, entries⟩ := logged
  · refine .inr ⟨⟨_, _, rfl⟩, fun printed t' h => ?_⟩
    obtain ⟨source, tokens, read, lexed, -⟩ := h.tokens_cases wanted
    cases hanswer.mpr ⟨source, read, lexed⟩
  · obtain ⟨source, read, lexed⟩ := hanswer.mp rfl
    exact .inl ⟨_, _, rfl, .tokens fits wanted read lexed⟩

theorem settled_reportCompile (fits : (compiler a).OutputFits t) (wanted : a.tokens = false)
    (log : List LogEntry) : Settled a t ((reportCompile a (compiler a) log : Action _).run t) := by
  have hanswer := @Compiler.answer_compile_iff t a.source
  rw [reportCompile, run_bind, Compiler.looks_compile]
  generalize ((Compiler.compile a.source : Action _).run t).1 = logged at hanswer ⊢
  obtain ⟨error | analysis, entries⟩ := logged
  · refine .inr ⟨⟨_, _, rfl⟩, fun printed t' h => ?_⟩
    obtain ⟨source, analysis, read, analyzed, -⟩ := h.compile_cases wanted
    cases hanswer.mpr ⟨source, read, analyzed⟩
  · obtain ⟨source, read, analyzed⟩ := hanswer.mp rfl
    have hcompiler : (compiler a).output = a.output := rfl
    cases output : a.output with
    | none =>
      simp only [hcompiler, output, run_pure]
      exact .inl ⟨_, _, rfl, .printed wanted output read analyzed⟩
    | some path =>
      simp only [hcompiler, output, run_bind]
      cases hwrite : t.write path ((compiler a).emit analysis) with
      | ok t' =>
        rw [Compiler.run_writeListing_of_ok hwrite]
        exact .inl ⟨_, _, rfl, .written fits wanted output read analyzed hwrite⟩
      | error error =>
        rw [Compiler.run_writeListing_of_error hwrite]
        refine .inr ⟨⟨_, _, rfl⟩, fun printed t' h => ?_⟩
        -- The source has one program and the output one path, so any way would have to make this
        -- write.
        obtain ⟨source', analysis', read', analyzed', ⟨output', -⟩ | ⟨path', output', hwrite'⟩⟩ :=
          h.compile_cases wanted
        · cases output.symm.trans output'
        · cases output.symm.trans output'
          cases hanswer.mpr ⟨source', read', analyzed'⟩
          cases hwrite.symm.trans hwrite'

/-- **How a run goes**: it succeeds if it can. -/
theorem report_cases (a : Arguments) (t : FileTree) :
    Settled a t ((report a : Action _).run t) := by
  have hanswer := @Compiler.answer_configure_iff t (compiler a)
  rw [report, run_bind, Compiler.looks_configure]
  generalize (((compiler a).configure : Action _).run t).1 = verdict at hanswer ⊢
  obtain error | c := verdict
  · refine .inr ⟨⟨_, _, rfl⟩, fun printed t' h => ?_⟩
    have fits : ¬(compiler a).OutputFits t := fun fits => by cases hanswer.mpr ⟨rfl, fits⟩
    cases h with
    | tokens fits' => exact fits fits'
    | printed wanted output => exact fits fun path hpath => by cases output.symm.trans hpath
    | written fits' => exact fits fits'
  · obtain ⟨rfl, fits⟩ := hanswer.mp rfl
    dsimp only
    split
    · rename_i wanted
      exact settled_reportTokens fits wanted _
    · rename_i wanted
      exact settled_reportCompile fits (Bool.eq_false_iff.mpr wanted) _

/-! ## 4. All or nothing -/

theorem Succeeds.leaves_files (h : Succeeds a t printed t')
    (ha : a.tokens = true ∨ a.output = none) : t' = t := by
  cases h with
  | tokens | printed => rfl
  | written _ wanted output => simp [wanted, output] at ha

theorem Succeeds.writes_listing {path : String} (h : Succeeds a t printed t')
    (wanted : a.tokens = false) (output : a.output = some path) :
    ∃ source analysis, t.read a.source = .ok source ∧ (Analysis.ofSource source).1 = .ok analysis ∧
      t.write path (Listing.render ⟨!a.noHeader, a.lineNumbers⟩ analysis.program) = .ok t' := by
  obtain ⟨source, analysis, read, analyzed, ⟨output', -⟩ | ⟨path', output', write⟩⟩ :=
    h.compile_cases wanted
  · cases output.symm.trans output'
  · cases output.symm.trans output'
    exact ⟨source, analysis, read, analyzed, write⟩

/-- The log of a run. -/
def runLog (a : Arguments) (t : FileTree) : List LogEntry :=
  ((report a : Action _).run t).1.log

section

variable {console : Console} {arguments : List String} {outcome : Outcome}

theorem files_of_detour {d : Detour} (h : Arguments.ofList arguments = .error d)
    (hrun : (run console arguments : Action Outcome).run t = (outcome, t')) : t' = t := by
  rw [run, h] at hrun
  cases hrun
  rfl

/-- What a caller sees of a run whose arguments ask for a compilation. -/
theorem run_cases (h : Arguments.ofList arguments = .ok a)
    (hrun : (run console arguments : Action Outcome).run t = (outcome, t')) :
    (outcome.exitStatus = 0 ∧ ∃ printed, Succeeds a t printed t' ∧
      outcome.stdout = logText console a (runLog a t) true ++ printed.text console) ∨
    (outcome.exitStatus = 1 ∧ t' = t ∧ (∀ printed t', ¬Succeeds a t printed t') ∧
      outcome.stdout = logText console a (runLog a t) true) := by
  have hreport : (run console arguments : Action Outcome).run t =
      (((report a : Action _).run t).1.outcome console a, ((report a : Action _).run t).2) := by
    rw [run, h]
    rfl
  rw [hreport] at hrun
  have hsettled := report_cases a t
  unfold runLog
  generalize (report a : Action _).run t = done at hrun hsettled
  cases hrun
  obtain ⟨log, printed, hdone, hsucceeds⟩ | ⟨⟨log, message, rfl⟩, hfails⟩ := hsettled
  · rw [hdone]
    exact .inl ⟨rfl, printed, hsucceeds, rfl⟩
  · exact .inr ⟨rfl, rfl, hfails, rfl⟩

theorem exitStatus_eq_zero_iff (h : Arguments.ofList arguments = .ok a)
    (hrun : (run console arguments : Action Outcome).run t = (outcome, t')) :
    outcome.exitStatus = 0 ↔ ∃ printed t', Succeeds a t printed t' := by
  obtain ⟨hexit, printed, hsucceeds, -⟩ | ⟨hexit, -, hfails, -⟩ := run_cases h hrun
  · exact ⟨fun _ => ⟨printed, t', hsucceeds⟩, fun _ => hexit⟩
  · refine ⟨fun hzero => ?_, fun ⟨printed, t', hsucceeds⟩ => absurd hsucceeds (hfails printed t')⟩
    rw [hexit] at hzero
    cases hzero

end

/-- **A run is all or nothing.** If it fails, the files are as they were. If it succeeds they are as
they were too, unless a listing was asked for in a file. That file then holds the listing of the
program whose source was read before, and every other position is left alone. And a run does succeed
if one of the ways to succeed is open to it. -/
theorem run_all_or_nothing (console : Console) (arguments : List String) (t : FileTree)
    {outcome : Outcome} {t' : FileTree}
    (hrun : (run console arguments : Action Outcome).run t = (outcome, t')) :
    (outcome.exitStatus ≠ 0 → t' = t) ∧
    (∀ d, Arguments.ofList arguments = .error d → t' = t) ∧
    ∀ a, Arguments.ofList arguments = .ok a →
      (outcome.exitStatus = 0 ↔ ∃ printed t', Succeeds a t printed t') ∧
      (a.tokens = true ∨ a.output = none → t' = t) ∧
      ∀ path, a.tokens = false → a.output = some path → outcome.exitStatus = 0 →
        ∃ source analysis position, t.read a.source = .ok source ∧
          (Analysis.ofSource source).1 = .ok analysis ∧ t.locate path = .ok position ∧
          t'.read path = .ok (Listing.render ⟨!a.noHeader, a.lineNumbers⟩ analysis.program) ∧
          t'.workingDirectory = t.workingDirectory ∧
          ∀ other, other ≠ position → t'.node? other = t.node? other := by
  cases h : Arguments.ofList arguments with
  | error d =>
    refine ⟨fun _ => files_of_detour h hrun, fun _ _ => files_of_detour h hrun, fun a ha => ?_⟩
    cases ha
  | ok a =>
    have hiff := exitStatus_eq_zero_iff h hrun
    obtain ⟨hexit, printed, hsucceeds, -⟩ | ⟨hexit, rfl, -⟩ := run_cases h hrun
    · refine ⟨fun hne => absurd hexit hne, fun d hd => (by cases hd), fun a ha => ?_⟩
      cases ha
      refine ⟨hiff, hsucceeds.leaves_files, fun path wanted output _ => ?_⟩
      obtain ⟨source, analysis, read, analyzed, write⟩ := hsucceeds.writes_listing wanted output
      have hread := read_of_write write
      obtain ⟨position, hlocate, -, -, rfl⟩ := write_cases write
      exact ⟨source, analysis, position, read, analyzed, hlocate, hread, rfl,
        fun other hother => node?_put_of_ne t _ hother⟩
    · refine ⟨fun _ => rfl, fun _ _ => rfl, fun a ha => ?_⟩
      cases ha
      refine ⟨hiff, fun _ => rfl, fun path _ _ hzero => ?_⟩
      rw [hexit] at hzero
      cases hzero

/-- A program with a single variable. -/
def echoSource : String :=
  "program p integer: a begin read(a) write(a) end."

/-- A tree with a single file, which holds this program. -/
def echoTree : FileTree where
  nodes := [(["p"], .file echoSource.toUTF8)]

theorem exists_ofSource_echoSource :
    ∃ analysis, (Analysis.ofSource echoSource).1 = .ok analysis := by
  have hok : (Analysis.ofSource echoSource).1.isOk = true := by decide +kernel
  cases h : (Analysis.ofSource echoSource).1 with
  | ok analysis => exact ⟨analysis, rfl⟩
  | error failure =>
    rw [h] at hok
    cases hok

theorem read_echoTree : echoTree.read "p" = .ok echoSource := by
  have hlookup : echoTree.lookup "p" = .ok (.file echoSource.toUTF8) := rfl
  simp only [FileTree.read, hlookup, bind, Except.bind, Text.fromUTF8?_toUTF8]

theorem run_all_or_nothing_in_place :
    ((run .plain ["p", "-o", "p"] : Action Outcome).run echoTree).1.exitStatus = 0 ∧
    ∃ source analysis position, echoTree.read "p" = .ok source ∧
      (Analysis.ofSource source).1 = .ok analysis ∧ echoTree.locate "p" = .ok position ∧
      ((run .plain ["p", "-o", "p"] : Action Outcome).run echoTree).2.read "p" =
        .ok (Listing.render ⟨true, false⟩ analysis.program) ∧
      ((run .plain ["p", "-o", "p"] : Action Outcome).run echoTree).2.workingDirectory =
        echoTree.workingDirectory ∧
      ∀ other, other ≠ position →
        ((run .plain ["p", "-o", "p"] : Action Outcome).run echoTree).2.node? other =
          echoTree.node? other := by
  obtain ⟨succeeds_iff, -, written⟩ :=
    (run_all_or_nothing .plain ["p", "-o", "p"] echoTree (Prod.eta _).symm).2.2
    ⟨0, 0, "p", some "p", false, false, false⟩ rfl
  obtain ⟨analysis, analyzed⟩ := exists_ofSource_echoSource
  have fits : (compiler ⟨0, 0, "p", some "p", false, false, false⟩).OutputFits echoTree := by
    rintro path ⟨⟩
    exact ⟨(by simp [show echoTree.stat "p" = .ok .file from rfl]), rfl⟩
  have hexit := succeeds_iff.mpr ⟨_, _, .written fits rfl rfl read_echoTree analyzed rfl⟩
  exact ⟨hexit, written "p" rfl rfl hexit⟩

end CommandLine

end ThreeAddress
