import ThreeAddress.Proofs.CommandLine.Effects

/-!
# Logging does not disturb a run

Two lists of arguments differ only in how much is to be logged if they are the same without the
logging flags (`CommandLine.withoutLogging`). Such runs leave the same files and end with the same
status; and where the standard output is reserved for the listing, they print the same.

Taking flags out of a list is not harmless to the reading of what is left. A value waits until the
next argument is acted upon, so where a flag is missing the value before it is taken in later. The
shorter list is therefore read with a delay (`Reading.Lags`): it is where the longer one is, or it
still has to take in a value that the longer one has. This is made up for with the next argument, at
the latest at the end.

For the runs themselves nothing has to be compared step by step. How a run can succeed (`Succeeds`)
does not mention the logging flags, and at most one way is open.
-/

namespace ThreeAddress

/-! ## 1. Arguments without the logging flags -/

namespace CommandLine

/-- The letters after one dash, without those of the logging flags. What follows the letter of the
option is its value. -/
def unloggedLetters : List Char → List Char
  | [] => []
  | 'o' :: value => 'o' :: value
  | 'v' :: cs => unloggedLetters cs
  | 'q' :: cs => unloggedLetters cs
  | c :: cs => c :: unloggedLetters cs

/-- What is left of an argument without the logging flags, if anything is. -/
def unlogged (argument : String) : Option String :=
  match argument.toList with
  | '-' :: '-' :: _ => if argument = "--verbose" ∨ argument = "--quiet" then none else some argument
  | '-' :: c :: cs =>
    match unloggedLetters (c :: cs) with
    | [] => none
    | kept => some (String.ofList ('-' :: kept))
  | _ => some argument

/-- The arguments without the logging flags. After `--` there are none. -/
def withoutLogging : List String → List String
  | [] => []
  | "--" :: rest => "--" :: rest
  | argument :: rest => (unlogged argument).toList ++ withoutLogging rest

end CommandLine

/-- The arguments with logging at its default. -/
def Arguments.muted (a : Arguments) : Arguments :=
  { a with verbose := 0, quiet := 0 }

/-! ## 2. Reading with a delay -/

namespace Reading

open CommandLine

variable {r r₀ r' s : Reading}

theorem bind_eq_ok {α β : Type} {x : Except Detour α} {f : α → Except Detour β} {b : β} :
    x >>= f = .ok b ↔ ∃ a, x = .ok a ∧ f a = .ok b := by
  cases x <;> simp [bind, Except.bind]

/-- What has been read, with logging at its default. -/
def muted (r : Reading) : Reading :=
  { r with verbose := 0, quiet := 0 }

theorem takeOutput_muted {value : String} (h : r.takeOutput value = .ok r') :
    r.muted.takeOutput value = .ok r'.muted := by
  unfold takeOutput at h ⊢
  split at h
  · cases h
  · rename_i houtput
    obtain ⟨output, hvalue, h⟩ := bind_eq_ok.mp h
    cases h
    rw [if_neg (show ¬r.muted.output.isSome = true from houtput)]
    exact bind_eq_ok.mpr ⟨output, hvalue, rfl⟩

theorem takeOutput_frame {value : String} (h : r.takeOutput value = .ok r') :
    r'.waiting = r.waiting ∧ r'.sourceGiven = r.sourceGiven := by
  unfold takeOutput at h
  split at h
  · cases h
  · obtain ⟨output, -, h⟩ := bind_eq_ok.mp h
    cases h
    exact ⟨rfl, rfl⟩

theorem settle_muted (h : r.settle = .ok s) : r.muted.settle = .ok s.muted := by
  unfold settle at h ⊢
  have hwaiting : r.muted.waiting = r.waiting := rfl
  rw [hwaiting]
  split at h
  · cases h
    rfl
  · obtain ⟨source, hvalue, h⟩ := bind_eq_ok.mp h
    cases h
    exact bind_eq_ok.mpr ⟨source, hvalue, rfl⟩
  · cases h
  · exact takeOutput_muted h

theorem settle_frame (h : r.settle = .ok s) : s.waiting = none ∧ s.sourceGiven = r.sourceGiven := by
  unfold settle at h
  split at h
  · cases h
    exact ⟨rfl, rfl⟩
  · obtain ⟨source, -, h⟩ := bind_eq_ok.mp h
    cases h
    exact ⟨rfl, rfl⟩
  · cases h
  · exact takeOutput_frame h

theorem settle_of_waiting (h : r.waiting = none) : r.settle = .ok r := by
  obtain ⟨verbose, quiet, source, output, noHeader, lineNumbers, tokens, sourceGiven, waiting⟩ := r
  cases h
  rfl

/-- The second reading has seen the same as the first and logging flags besides. The first one
stands where the second one does, or it still has to take in a value that the second one has taken
in. -/
inductive Lags (r₀ r : Reading) : Prop
  | level (same : r₀ = r.muted)
  | behind (settled : r.waiting = none) (settles : r₀.settle = .ok r.muted)

/-- When the second reading takes in what waits, the first can do so too, and has caught up. -/
theorem Lags.settle (h : Lags r₀ r) (hs : r.settle = .ok s) : r₀.settle = .ok s.muted := by
  cases h with
  | level same =>
    rw [same]
    exact settle_muted hs
  | behind settled settles =>
    rw [settle_of_waiting settled] at hs
    cases hs
    exact settles

theorem Lags.sourceGiven (h : Lags r₀ r) : r₀.sourceGiven = r.sourceGiven := by
  cases h with
  | level same =>
    rw [same]
    rfl
  | behind _ settles => exact (settle_frame settles).2.symm

/-- A logging flag makes the second reading take in what waits, and nothing else that the first
would have to do too. -/
theorem Lags.takeFlag_logging {flag : Flag} (hlogging : flag = .verbose ∨ flag = .quiet)
    (h : Lags r₀ r) (hr : r.takeFlag flag = .ok r') : Lags r₀ r' := by
  obtain ⟨s, hs, hr⟩ := bind_eq_ok.mp hr
  have hs₀ : r₀.settle = .ok s.muted := h.settle hs
  obtain rfl | rfl := hlogging
  all_goals
    obtain ⟨n, -, hr⟩ := bind_eq_ok.mp hr
    cases hr
    exact .behind (settle_frame hs).1 hs₀

theorem Lags.takeFlag {flag : Flag} (hverbose : flag ≠ .verbose) (hquiet : flag ≠ .quiet)
    (h : Lags r₀ r) (hr : r.takeFlag flag = .ok r') : r₀.takeFlag flag = .ok r'.muted := by
  obtain ⟨s, hs, hr⟩ := bind_eq_ok.mp hr
  refine bind_eq_ok.mpr ⟨s.muted, h.settle hs, ?_⟩
  cases flag with
  | verbose => exact absurd rfl hverbose
  | quiet => exact absurd rfl hquiet
  | noHeader | lineNumbers | tokens =>
    obtain ⟨given, hgiven, hr⟩ := bind_eq_ok.mp hr
    cases hr
    exact bind_eq_ok.mpr ⟨given, hgiven, rfl⟩
  | help | version => cases hr

theorem Lags.takeOption {attached : Option String} (h : Lags r₀ r)
    (hr : r.takeOption attached = .ok r') : r₀.takeOption attached = .ok r'.muted := by
  obtain ⟨s, hs, hr⟩ := bind_eq_ok.mp hr
  refine bind_eq_ok.mpr ⟨s.muted, h.settle hs, ?_⟩
  cases attached with
  | none =>
    cases hr
    rfl
  | some value => exact takeOutput_muted hr

theorem Lags.takePlain {value : String} (h : Lags r₀ r) (hr : r.takePlain value = .ok r') :
    r₀.takePlain value = .ok r'.muted := by
  unfold Reading.takePlain at hr ⊢
  rw [h.sourceGiven]
  split at hr
  · cases hr
  · rename_i hgiven
    rw [if_neg hgiven]
    obtain ⟨s, hs, hr⟩ := bind_eq_ok.mp hr
    cases hr
    exact bind_eq_ok.mpr ⟨s.muted, h.settle hs, rfl⟩

theorem takeLetters_option (value : List Char) :
    ∃ attached, ∀ r : Reading, r.takeLetters ('o' :: value) = r.takeOption attached := by
  rcases value with _ | ⟨c, value⟩
  · exact ⟨none, fun _ => rfl⟩
  · by_cases hc : c = '='
    · subst hc
      exact ⟨some (String.ofList value), fun _ => rfl⟩
    · refine ⟨some (String.ofList (c :: value)), fun r => ?_⟩
      simp [Reading.takeLetters, Named.ofLetter?, hc]

theorem ofLetter?_cases {c : Char} (hoption : c ≠ 'o') (hverbose : c ≠ 'v') (hquiet : c ≠ 'q') :
    Named.ofLetter? c = none ∨ Named.ofLetter? c = some (.flag .help) ∨
      Named.ofLetter? c = some (.flag .version) := by
  unfold Named.ofLetter?
  split <;> simp_all

/-- Letters that are accepted are those of logging flags, up to the letter of the option. -/
theorem Lags.takeLetters {cs : List Char} (h : Lags r₀ r) (hr : r.takeLetters cs = .ok r') :
    (unloggedLetters cs = [] ∧ Lags r₀ r') ∨
      ∃ value, unloggedLetters cs = 'o' :: value ∧
        r₀.takeLetters ('o' :: value) = .ok r'.muted := by
  fun_induction unloggedLetters cs generalizing r with
  | case1 =>
    cases hr
    exact .inl ⟨rfl, h⟩
  | case2 value =>
    obtain ⟨attached, hattached⟩ := takeLetters_option value
    rw [hattached] at hr
    refine .inr ⟨value, rfl, ?_⟩
    rw [hattached]
    exact h.takeOption hr
  | case3 cs ih =>
    obtain ⟨s, hs, hr⟩ := bind_eq_ok.mp hr
    exact ih (h.takeFlag_logging (.inl rfl) hs) hr
  | case4 cs ih =>
    obtain ⟨s, hs, hr⟩ := bind_eq_ok.mp hr
    exact ih (h.takeFlag_logging (.inr rfl) hs) hr
  | case5 c cs hoption hverbose hquiet =>
    -- Any other letter is unknown, or ends the reading.
    unfold Reading.takeLetters at hr
    obtain hc | hc | hc := ofLetter?_cases hoption hverbose hquiet <;> rw [hc] at hr
    · cases hr
    all_goals
      obtain ⟨s, hs, -⟩ := bind_eq_ok.mp hr
      obtain ⟨_, _, hs⟩ := bind_eq_ok.mp hs
      cases hs

theorem eq_of_cutAtEquals {cs : List Char} (h : (cutAtEquals cs).2 = none) :
    cs = (cutAtEquals cs).1.toList := by
  unfold cutAtEquals at h ⊢
  dsimp only at h ⊢
  split at h
  · rename_i hdrop
    calc
      cs = cs.takeWhile (· ≠ '=') ++ cs.dropWhile (· ≠ '=') := List.takeWhile_append_dropWhile.symm
      _ = cs.takeWhile (· ≠ '=') := by rw [hdrop, List.append_nil]
      _ = (String.ofList (cs.takeWhile (· ≠ '='))).toList := String.toList_ofList.symm
  · cases h

theorem word_of_logging {word : String} {flag : Flag} (hlogging : flag = .verbose ∨ flag = .quiet)
    (h : Named.ofWord? word = some (.flag flag)) : word = "verbose" ∨ word = "quiet" := by
  unfold Named.ofWord? at h
  split at h <;> obtain rfl | rfl := hlogging <;> simp_all

theorem Lags.takeWord {word : String} {attached : Option String}
    (hword : attached = none → word ≠ "verbose" ∧ word ≠ "quiet") (h : Lags r₀ r)
    (hr : r.takeWord word attached = .ok r') : r₀.takeWord word attached = .ok r'.muted := by
  unfold Reading.takeWord at hr ⊢
  split at hr
  · cases hr
  · exact h.takeOption hr
  · cases hr
  · rename_i flag hnamed
    refine h.takeFlag (fun hverbose => ?_) (fun hquiet => ?_) hr
    · exact absurd (word_of_logging (.inl hverbose) hnamed) (by simp [hword rfl])
    · exact absurd (word_of_logging (.inr hquiet) hnamed) (by simp [hword rfl])

theorem Lags.waiting_iff (h : Lags r₀ r) :
    r₀.waiting = some (.output none) ↔ r.waiting = some (.output none) := by
  cases h with
  | level same =>
    rw [same]
    rfl
  | behind settled settles =>
    rw [settled]
    refine ⟨fun hwaiting => ?_, fun hwaiting => by cases hwaiting⟩
    rw [Reading.settle, hwaiting] at settles
    cases settles

/-! ### Arguments by their shape -/

theorem shape_cases (argument : String) :
    (∃ cs, argument.toList = '-' :: '-' :: cs) ∨
    (∃ c cs, argument.toList = '-' :: c :: cs ∧ c ≠ '-') ∨
      ∀ c cs, argument.toList ≠ '-' :: c :: cs := by
  grind

theorem take_word {argument : String} {cs : List Char} (h : argument.toList = '-' :: '-' :: cs)
    (r : Reading) : r.take argument = r.takeWord (cutAtEquals cs).1 (cutAtEquals cs).2 := by
  simp only [take, h]

theorem take_letters {argument : String} {c : Char} {cs : List Char}
    (h : argument.toList = '-' :: c :: cs)
    (hc : c ≠ '-') (r : Reading) : r.take argument = r.takeLetters (c :: cs) := by
  simp only [take, h]

theorem take_plain {argument : String} (h : ∀ c cs, argument.toList ≠ '-' :: c :: cs)
    (r : Reading) :
    r.take argument = if r.waiting = some (.output none) then
      .ok { r with waiting := some (.output (some argument)) } else r.takePlain argument := by
  unfold take
  split
  · rename_i hlist
    exact absurd hlist (h _ _)
  · rename_i hlist
    exact absurd hlist (h _ _)
  · split
    · rename_i hwaiting
      rw [if_pos hwaiting]
      rfl
    · rename_i hwaiting
      rw [if_neg hwaiting]

theorem unlogged_plain {argument : String} (h : ∀ c cs, argument.toList ≠ '-' :: c :: cs) :
    unlogged argument = some argument := by
  unfold unlogged
  split
  · rename_i hlist
    exact absurd hlist (h _ _)
  · rename_i hlist
    exact absurd hlist (h _ _)
  · rfl

theorem Lags.take_plain {argument : String} (hplain : ∀ c cs, argument.toList ≠ '-' :: c :: cs)
    (h : Lags r₀ r) (hr : r.take argument = .ok r') : r₀.take argument = .ok r'.muted := by
  rw [Reading.take_plain hplain] at hr ⊢
  by_cases hwaiting : r.waiting = some (.output none)
  · rw [if_pos hwaiting] at hr
    rw [if_pos (h.waiting_iff.mpr hwaiting)]
    cases hr
    -- The option still waits for its value, so nothing was taken in ahead of the first reading.
    cases h with
    | level same =>
      rw [same]
      rfl
    | behind settled => cases settled.symm.trans hwaiting
  · rw [if_neg hwaiting] at hr
    rw [if_neg (mt h.waiting_iff.mp hwaiting)]
    exact h.takePlain hr

/-- **One argument.** Without its logging flags nothing is left of it, or what is left is acted upon
and the first reading catches up. -/
theorem Lags.take {argument : String} (h : Lags r₀ r) (hr : r.take argument = .ok r') :
    (unlogged argument = none ∧ Lags r₀ r') ∨
      ∃ kept, unlogged argument = some kept ∧ (kept = "--" → argument = "--") ∧
        r₀.take kept = .ok r'.muted := by
  obtain ⟨cs, hword⟩ | ⟨c, cs, hletters, hc⟩ | hplain := shape_cases argument
  · by_cases hlogging : argument = "--verbose" ∨ argument = "--quiet"
    · refine .inl ⟨by simp only [unlogged, hword, if_pos hlogging], ?_⟩
      obtain rfl | rfl := hlogging
      · have hflag : r.takeFlag .verbose = .ok r' := hr
        exact h.takeFlag_logging (.inl rfl) hflag
      · have hflag : r.takeFlag .quiet = .ok r' := hr
        exact h.takeFlag_logging (.inr rfl) hflag
    · refine .inr ⟨argument, by simp only [unlogged, hword, if_neg hlogging], id, ?_⟩
      rw [take_word hword] at hr ⊢
      refine h.takeWord (fun hattached => ?_) hr
      have hcs := eq_of_cutAtEquals hattached
      refine ⟨fun hverbose => hlogging (.inl ?_), fun hquiet => hlogging (.inr ?_)⟩
      · rw [hverbose] at hcs
        exact String.toList_inj.mp (by rw [hword, hcs]; rfl)
      · rw [hquiet] at hcs
        exact String.toList_inj.mp (by rw [hword, hcs]; rfl)
  · rw [take_letters hletters hc] at hr
    obtain ⟨hnil, hlags⟩ | ⟨value, hkept, htaken⟩ := h.takeLetters hr
    · exact .inl ⟨by simp only [unlogged, hletters, hnil], hlags⟩
    · refine .inr
        ⟨String.ofList ('-' :: 'o' :: value), by simp only [unlogged, hletters, hkept], ?_, ?_⟩
      · intro hdashes
        simpa using congrArg String.toList hdashes
      · rw [take_letters String.toList_ofList (by decide)]
        exact htaken
  · exact .inr ⟨argument, unlogged_plain hplain, id, h.take_plain hplain hr⟩

theorem Lags.foldlM_takePlain {values : List String} (h : Lags r₀ r)
    (hr : values.foldlM Reading.takePlain r = .ok r') :
    ∃ r₀', values.foldlM Reading.takePlain r₀ = .ok r₀' ∧ Lags r₀' r' := by
  induction values generalizing r₀ r with
  | nil =>
    cases hr
    exact ⟨r₀, rfl, h⟩
  | cons value values ih =>
    obtain ⟨s, hs, hr⟩ := bind_eq_ok.mp hr
    obtain ⟨r₀', hr₀, hlags⟩ := ih (.level rfl) hr
    exact ⟨r₀', bind_eq_ok.mpr ⟨s.muted, h.takePlain hs, hr₀⟩, hlags⟩

theorem takeAll_cons {argument : String} (h : argument ≠ "--") (r : Reading) (rest : List String) :
    r.takeAll (argument :: rest) = r.take argument >>= (·.takeAll rest) := by
  rw [takeAll]
  exact h

/-- **All arguments.** Induction on the list; the lag carries over from each argument to the
next. -/
theorem Lags.takeAll {arguments : List String} (h : Lags r₀ r) (hr : r.takeAll arguments = .ok r') :
    ∃ r₀', r₀.takeAll (withoutLogging arguments) = .ok r₀' ∧ Lags r₀' r' := by
  fun_induction withoutLogging arguments generalizing r₀ r with
  | case1 =>
    cases hr
    exact ⟨r₀, rfl, h⟩
  | case2 rest => exact h.foldlM_takePlain hr
  | case3 argument rest hne ih =>
    rw [takeAll_cons hne] at hr
    obtain ⟨s, hs, hr⟩ := bind_eq_ok.mp hr
    obtain ⟨hnone, hlags⟩ | ⟨kept, hkept, hdashes, htaken⟩ := h.take hs
    · rw [hnone]
      exact ih hlags hr
    · obtain ⟨r₀', hr₀, hlags⟩ := ih (.level rfl) hr
      refine ⟨r₀', ?_, hlags⟩
      rw [hkept, Option.toList_some, List.singleton_append, takeAll_cons (mt hdashes hne)]
      exact bind_eq_ok.mpr ⟨s.muted, htaken, hr₀⟩

theorem Lags.finish {a : Arguments} (h : Lags r₀ r) (hr : r.finish = .ok a) :
    r₀.finish = .ok a.muted := by
  obtain ⟨s, hs, hr⟩ := bind_eq_ok.mp hr
  refine bind_eq_ok.mpr ⟨s.muted, h.settle hs, ?_⟩
  split at hr
  · cases hr
  · rw [if_neg (by simp [muted])]
    have hsource : s.muted.source = s.source := rfl
    rw [hsource]
    split at hr
    · cases hr
    · cases hr
      rfl

end Reading

/-- A list of arguments without the logging flags asks for the same, with logging at its default. -/
theorem Arguments.ofList_withoutLogging {arguments : List String} {a : Arguments}
    (h : Arguments.ofList arguments = .ok a) :
    Arguments.ofList (CommandLine.withoutLogging arguments) = .ok a.muted := by
  obtain ⟨r, hr, hfinish⟩ := Reading.bind_eq_ok.mp h
  obtain ⟨r₀, hr₀, hlags⟩ := Reading.Lags.takeAll (.level rfl) hr
  exact Reading.bind_eq_ok.mpr ⟨r₀, hr₀, hlags.finish hfinish⟩

example :
    CommandLine.withoutLogging ["-vo", "v", "--verbose", "--", "-q"] = ["-o", "v", "--", "-q"] ∧
    Arguments.ofList ["-o", "v", "--", "-q"] = .ok ⟨0, 0, "-q", some "v", false, false, false⟩ :=
  ⟨by decide +kernel, rfl⟩

/-! ## 3. Runs that differ in how much is logged -/

namespace CommandLine

open FileTree

variable {console console₁ console₂ : Console} {a a₁ a₂ : Arguments} {t t' : FileTree}
  {printed : Printout} {log : List LogEntry}

theorem succeeds_muted_iff : Succeeds a.muted t printed t' ↔ Succeeds a t printed t' := by
  constructor <;> intro h
  all_goals
    cases h with
    | tokens fits wanted read lexed => exact .tokens fits wanted read lexed
    | printed wanted output read analyzed => exact .printed wanted output read analyzed
    | written fits wanted output read analyzed write =>
      exact .written fits wanted output read analyzed write

theorem succeeds_congr (h : a₁.muted = a₂.muted) :
    Succeeds a₁ t printed t' ↔ Succeeds a₂ t printed t' := by
  rw [← succeeds_muted_iff, h, succeeds_muted_iff]

/-! ### The log on the standard output -/

theorem listingOnStdout_iff : a.listingOnStdout = true ↔ a.tokens = true ∨ a.output = none := by
  simp [Arguments.listingOnStdout]

theorem logText_of_reserved (h : a.listingOnStdout = true) : logText console a log true = "" := by
  have hnone : (admitted a log).filter (onStdout a ·.1 == true) = [] :=
    List.filter_eq_nil_iff.mpr fun entry _ => by simp [onStdout, h]
  rw [logText, hnone]
  rfl

/-- The lines of the entries that are neither warnings nor errors, as far as the filter admits
them. -/
def quietLines (console : Console) (a : Arguments) (log : List LogEntry) : List String :=
  (log.zipIdx.filter fun entry => entry.1.event.level ∉ [.warn, .error] ∧
    a.levelFilter.admits entry.1.event.level).map fun entry => console.logLine entry.2 entry.1

theorem logText_of_free (h : a.listingOnStdout = false) :
    logText console a log true = String.join (quietLines console a log) := by
  unfold logText admitted quietLines
  rw [List.filter_filter]
  congr 3
  funext entry
  unfold onStdout
  rw [h]
  cases entry.1.event.level <;> simp [Level.rank]

/-! ### The result on the standard output -/

theorem highlight_of_plain (h : console.colors = false) : console.highlight = id := by
  funext text
  simp [Console.highlight, h]

theorem describe_newline (console : Console) (k : Token) :
    console.describe k ++ "\n" = s!"Token '{k.text}' is a {console.highlight k.kind.name}.\n" := by
  unfold Console.describe
  rw [String.append_assoc]
  rfl

/-- Printouts are the same on consoles with the same colors. -/
theorem text_congr (h : console₁.highlight = console₂.highlight) (printed : Printout) :
    printed.text console₁ = printed.text console₂ := by
  cases printed with
  | nothing | listing => rfl
  | tokens ts =>
    simp only [Printout.text, tokenLines, describe_newline, h]

/-- What a successful run prints if the standard output is reserved for it. -/
theorem Succeeds.prints (h : Succeeds a t printed t')
    (hreserved : a.tokens = true ∨ a.output = none) :
    ∃ source, t.read a.source = .ok source ∧
      (a.tokens = true → ∃ tokens, (Lexer.ofSource source).tokens.answer = .ok tokens ∧
        printed = .tokens tokens) ∧
      (a.tokens = false → ∃ analysis, (Analysis.ofSource source).1 = .ok analysis ∧
        printed = .listing (Listing.render ⟨!a.noHeader, a.lineNumbers⟩ analysis.program)) := by
  cases wanted : a.tokens with
  | true =>
    obtain ⟨source, tokens, read, lexed, hprinted⟩ := h.tokens_cases wanted
    exact ⟨source, read, fun _ => ⟨tokens, lexed, hprinted⟩, fun hno => by cases hno⟩
  | false =>
    obtain ⟨source, analysis, read, analyzed, ⟨-, hprinted⟩ | ⟨path, output, -⟩⟩ :=
      h.compile_cases wanted
    · exact ⟨source, read, fun hyes => (by cases hyes), fun _ => ⟨analysis, analyzed, hprinted⟩⟩
    · simp [wanted, output] at hreserved

theorem Succeeds.prints_nothing (h : Succeeds a t printed t') (hfree : a.listingOnStdout = false) :
    printed = .nothing := by
  cases h with
  | tokens _ wanted => simp [Arguments.listingOnStdout, wanted] at hfree
  | printed _ output => simp [Arguments.listingOnStdout, output] at hfree
  | written => rfl

section

variable {arguments arguments₁ arguments₂ : List String} {outcome o₁ o₂ : Outcome}
  {t₁ t₂ : FileTree}

theorem stdout_of_reserved (h : Arguments.ofList arguments = .ok a)
    (hrun : (run console arguments : Action Outcome).run t = (outcome, t'))
    (hreserved : a.listingOnStdout = true) :
    (outcome.exitStatus = 0 ∧
      ∃ printed, Succeeds a t printed t' ∧ outcome.stdout = printed.text console) ∨
    (outcome.exitStatus = 1 ∧ outcome.stdout = "") := by
  obtain ⟨hexit, printed, hsucceeds, hstdout⟩ | ⟨hexit, -, -, hstdout⟩ := run_cases h hrun
  · rw [logText_of_reserved hreserved, String.empty_append] at hstdout
    exact .inl ⟨hexit, printed, hsucceeds, hstdout⟩
  · rw [logText_of_reserved hreserved] at hstdout
    exact .inr ⟨hexit, hstdout⟩

theorem stdout_of_free (h : Arguments.ofList arguments = .ok a)
    (hrun : (run console arguments : Action Outcome).run t = (outcome, t'))
    (hfree : a.listingOnStdout = false) :
    outcome.stdout = logText console a (runLog a t) true := by
  obtain ⟨-, printed, hsucceeds, hstdout⟩ | ⟨-, -, -, hstdout⟩ := run_cases h hrun
  · rw [hstdout, hsucceeds.prints_nothing hfree]
    exact String.append_empty
  · exact hstdout

/-- Both runs succeed or none does, since the ways to succeed are the same for them. -/
theorem runs_agree (hmuted : a₁.muted = a₂.muted) (h₁ : Arguments.ofList arguments₁ = .ok a₁)
    (h₂ : Arguments.ofList arguments₂ = .ok a₂)
    (hrun₁ : (run console₁ arguments₁ : Action Outcome).run t = (o₁, t₁))
    (hrun₂ : (run console₂ arguments₂ : Action Outcome).run t = (o₂, t₂)) :
    o₁.exitStatus = o₂.exitStatus ∧ t₁ = t₂ := by
  obtain ⟨hexit₁, _, hsucceeds₁, -⟩ | ⟨hexit₁, rfl, hfails₁, -⟩ := run_cases h₁ hrun₁
  · obtain ⟨hexit₂, _, hsucceeds₂, -⟩ | ⟨-, -, hfails₂, -⟩ := run_cases h₂ hrun₂
    · exact ⟨hexit₁.trans hexit₂.symm,
        (hsucceeds₂.unique ((succeeds_congr hmuted).mp hsucceeds₁)).2⟩
    · exact absurd ((succeeds_congr hmuted).mp hsucceeds₁) (hfails₂ _ _)
  · obtain ⟨-, _, hsucceeds₂, -⟩ | ⟨hexit₂, rfl, -⟩ := run_cases h₂ hrun₂
    · exact absurd ((succeeds_congr hmuted).mpr hsucceeds₂) (hfails₁ _ _)
    · exact ⟨hexit₁.trans hexit₂.symm, rfl⟩

theorem stdout_agrees (hcolors : console₁.highlight = console₂.highlight)
    (hmuted : a₁.muted = a₂.muted) (h₁ : Arguments.ofList arguments₁ = .ok a₁)
    (h₂ : Arguments.ofList arguments₂ = .ok a₂)
    (hrun₁ : (run console₁ arguments₁ : Action Outcome).run t = (o₁, t₁))
    (hrun₂ : (run console₂ arguments₂ : Action Outcome).run t = (o₂, t₂))
    (hreserved : a₁.listingOnStdout = true) : o₁.stdout = o₂.stdout := by
  have hexit := (runs_agree hmuted h₁ h₂ hrun₁ hrun₂).1
  have hreserved₂ : a₂.muted.listingOnStdout = true := by
    rw [← hmuted]
    exact hreserved
  obtain ⟨hexit₁, _, hsucceeds₁, hstdout₁⟩ | ⟨hexit₁, hstdout₁⟩ :=
      stdout_of_reserved h₁ hrun₁ hreserved <;>
    obtain ⟨hexit₂, _, hsucceeds₂, hstdout₂⟩ | ⟨hexit₂, hstdout₂⟩ :=
      stdout_of_reserved h₂ hrun₂ hreserved₂
  · rw [hstdout₁, hstdout₂, text_congr hcolors,
      (hsucceeds₂.unique ((succeeds_congr hmuted).mp hsucceeds₁)).1]
  · rw [hexit₁, hexit₂] at hexit
    cases hexit
  · rw [hexit₁, hexit₂] at hexit
    cases hexit
  · rw [hstdout₁, hstdout₂]

end

/-- **Logging does not disturb a run.** Two runs whose arguments are the same without the logging
flags end with the same status and leave the same files, and this status is zero exactly if a way
to succeed is open. If the standard output is reserved for the listing or the tokens, and supports
colors in both runs or in none, it is the same too: these and nothing else, or nothing at all after
a failure. If it is not reserved, it has the lines of log entries, none of which is a warning or
an error. How a log line is written does not matter, and it may differ from run to run. -/
theorem logging_disturbs_nothing {arguments₁ arguments₂ : List String} {o₁ o₂ : Outcome}
    {t₁ t₂ : FileTree} (hcolors : console₁.highlight = console₂.highlight)
    (h₁ : Arguments.ofList arguments₁ = .ok a₁) (h₂ : Arguments.ofList arguments₂ = .ok a₂)
    (hsame : withoutLogging arguments₁ = withoutLogging arguments₂)
    (hrun₁ : (run console₁ arguments₁ : Action Outcome).run t = (o₁, t₁))
    (hrun₂ : (run console₂ arguments₂ : Action Outcome).run t = (o₂, t₂)) :
    o₁.exitStatus = o₂.exitStatus ∧ t₁ = t₂ ∧
    (o₁.exitStatus = 0 ↔ ∃ printed t', Succeeds a₁ t printed t') ∧
    (a₁.tokens = true ∨ a₁.output = none →
      o₁.stdout = o₂.stdout ∧
      (o₁.exitStatus = 0 → ∃ source, t.read a₁.source = .ok source ∧
        (a₁.tokens = true → ∃ tokens, (Lexer.ofSource source).tokens.answer = .ok tokens ∧
          o₁.stdout = String.join (tokens.map fun k =>
            s!"Token '{k.text}' is a {console₁.highlight k.kind.name}.\n") ∧
          (console₁.colors = false → o₁.stdout = String.join (tokens.map fun k =>
            s!"Token '{k.text}' is a {k.kind.name}.\n"))) ∧
        (a₁.tokens = false → ∃ analysis, (Analysis.ofSource source).1 = .ok analysis ∧
          o₁.stdout = Listing.render ⟨!a₁.noHeader, a₁.lineNumbers⟩ analysis.program)) ∧
      (o₁.exitStatus ≠ 0 → o₁.stdout = "")) ∧
    (a₁.tokens = false → a₁.output ≠ none →
      o₁.stdout = String.join (quietLines console₁ a₁ (runLog a₁ t))) := by
  have hmuted : a₁.muted = a₂.muted := by
    have hread := Arguments.ofList_withoutLogging h₁
    rw [hsame, Arguments.ofList_withoutLogging h₂] at hread
    exact (Except.ok.inj hread).symm
  obtain ⟨hexit, hfiles⟩ := runs_agree hmuted h₁ h₂ hrun₁ hrun₂
  refine ⟨hexit, hfiles, exitStatus_eq_zero_iff h₁ hrun₁, fun hreserved => ?_,
    fun wanted output => ?_⟩
  · have hlisting := listingOnStdout_iff.mpr hreserved
    refine ⟨stdout_agrees hcolors hmuted h₁ h₂ hrun₁ hrun₂ hlisting, ?_⟩
    obtain ⟨hzero, printed, hsucceeds, hstdout⟩ | ⟨hone, hempty⟩ :=
      stdout_of_reserved h₁ hrun₁ hlisting
    · obtain ⟨source, read, htokens, hcompiled⟩ := hsucceeds.prints hreserved
      refine ⟨fun _ => ⟨source, read, fun wanted => ?_, fun wanted => ?_⟩,
        fun hne => absurd hzero hne⟩
      · obtain ⟨tokens, lexed, rfl⟩ := htokens wanted
        have hlines : o₁.stdout = String.join (tokens.map fun k =>
            s!"Token '{k.text}' is a {console₁.highlight k.kind.name}.\n") := by
          simp only [hstdout, Printout.text, tokenLines, describe_newline]
        refine ⟨tokens, lexed, hlines, fun hplain => ?_⟩
        rwa [highlight_of_plain hplain] at hlines
      · obtain ⟨analysis, analyzed, rfl⟩ := hcompiled wanted
        exact ⟨analysis, analyzed, hstdout⟩
    · refine ⟨fun hzero => ?_, fun _ => hempty⟩
      rw [hone] at hzero
      cases hzero
  · have hfree : a₁.listingOnStdout = false := by
      rw [Bool.eq_false_iff, Ne, listingOnStdout_iff]
      simp [wanted, output]
    rw [stdout_of_free h₁ hrun₁ hfree, logText_of_free hfree]

/-- A console that numbers the lines of the log. -/
def numbered : Console :=
  { Console.plain with logLine := fun n entry => s!"{n} {entry.line}" }

theorem logging_disturbs_nothing_echo :
    withoutLogging ["-vv", "p"] = withoutLogging ["p", "--quiet"] ∧
    ((run numbered ["-vv", "p"] : Action Outcome).run echoTree).1.exitStatus = 0 ∧
    ((run .plain ["p", "--quiet"] : Action Outcome).run echoTree).1.exitStatus = 0 ∧
    ((run numbered ["-vv", "p"] : Action Outcome).run echoTree).2 =
      ((run .plain ["p", "--quiet"] : Action Outcome).run echoTree).2 ∧
    ((run numbered ["-vv", "p"] : Action Outcome).run echoTree).1.stdout =
      ((run .plain ["p", "--quiet"] : Action Outcome).run echoTree).1.stdout ∧
    ∃ source, echoTree.read "p" = .ok source ∧
      ∃ analysis, (Analysis.ofSource source).1 = .ok analysis ∧
        ((run numbered ["-vv", "p"] : Action Outcome).run echoTree).1.stdout =
          Listing.render ⟨true, false⟩ analysis.program := by
  have hsame : withoutLogging ["-vv", "p"] = withoutLogging ["p", "--quiet"] := by decide +kernel
  have h₁ : Arguments.ofList ["-vv", "p"] = .ok ⟨2, 0, "p", none, false, false, false⟩ := rfl
  have h₂ : Arguments.ofList ["p", "--quiet"] = .ok ⟨0, 1, "p", none, false, false, false⟩ := rfl
  have hcolors : numbered.highlight = Console.plain.highlight :=
    (highlight_of_plain rfl).trans (highlight_of_plain rfl).symm
  obtain ⟨hexit, hfiles, succeeds_iff, hstdout, -⟩ :=
    logging_disturbs_nothing hcolors h₁ h₂ hsame (t := echoTree) (Prod.eta _).symm
      (Prod.eta _).symm
  obtain ⟨analysis, analyzed⟩ := exists_ofSource_echoSource
  have hzero := succeeds_iff.mpr ⟨_, _, .printed rfl rfl read_echoTree analyzed⟩
  obtain ⟨hagrees, hprinted, -⟩ := hstdout (.inr rfl)
  obtain ⟨source, read, -, hcompiled⟩ := hprinted hzero
  exact ⟨hsame, hzero, hexit ▸ hzero, hfiles, hagrees, source, read, hcompiled rfl⟩

end CommandLine

end ThreeAddress
