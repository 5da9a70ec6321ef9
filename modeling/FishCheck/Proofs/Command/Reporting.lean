import FishCheck.Proofs.Command.Checking
import FishCheck.Proofs.Command.Installing
import FishCheck.Proofs.Text.Sorting

/-!
# Reports on checked files

A check is for people and for machines: the report lists what was found and the exit code
sums it up.  Both have to tell the same story, for any mixture of clean, broken and
unreadable files.  Every diagnostic is listed once, every failure is named once, the counts
are those of what is listed, and a failure is never passed over for complaints.

Main results:

- Theorem `exitCode_cases`: the exit code follows from failures, then from diagnostics.
- Theorems `summary_of_broken`, `summary_of_clean` and `summary_of_failed`: what the last line
  says.
- Theorem `successLine_suffix_iff`: success is announced exactly when the exit code says so.
- Theorem `accounts_report`: the reports on any results account for them.
- Theorem `report_accounts`: so do the reports of a check on what it finds.
-/

namespace FishCheck

namespace Check

/-! ## What is found -/

section Found

variable (results : List (Path × Verdict))

/-- All diagnostics with their files, in the order of the files, and for one file in the order
in which the checker came to them. -/
def found : List (Path × Diagnostic) :=
  results.flatMap fun r => (diagnosticsOf r.2).map fun d => (r.1, d)

/-- The results of the files with diagnostics. -/
def broken : List (Path × Verdict) :=
  results.filter fun r => diagnosticsOf r.2 ≠ []

/-- Some file could not be checked. -/
def AnyFailed : Prop := ∃ r ∈ results, ∃ message, r.2 = .error message

/-- Some file has a diagnostic. -/
def AnyBroken : Prop := ∃ r ∈ results, ∃ ds, r.2 = .ok ds ∧ ds ≠ []

theorem errorCount_eq : errorCount results = (found results).length := by
  induction results with
  | nil => rfl
  | cons r rs ih =>
    rw [errorCount] at ih ⊢
    simp only [found, List.map_cons, Text.total_cons, List.flatMap_cons, List.length_append,
      List.length_map]
    rw [ih, found]

theorem brokenCount_eq : brokenCount results = (broken results).length := by
  rw [brokenCount, broken, List.countP_eq_length_filter]
  congr 2
  funext r
  cases diagnosticsOf r.2 <;> rfl

theorem diagnosticLines_eq (p : Palette) :
    diagnosticLines p results = (found results).map fun e => diagnosticLine p e.1 e.2 := by
  rw [diagnosticLines, found, List.map_flatMap]
  simp only [List.map_map, Function.comp_def]

end Found

section Verdicts

variable {results : List (Path × Verdict)}

/-- Something is found exactly when some file has a diagnostic. -/
theorem found_ne_nil_iff : found results ≠ [] ↔ AnyBroken results := by
  rw [ne_eq, found, List.flatMap_eq_nil_iff]
  constructor
  · intro hfound
    by_contra hnone
    refine hfound fun r hr => ?_
    cases hverdict : r.2 with
    | error message => rfl
    | ok ds =>
      by_contra hds
      refine hnone ⟨r, hr, ds, hverdict, fun hnil => hds ?_⟩
      rw [hnil]
      rfl
  · rintro ⟨r, hr, ds, hverdict, hds⟩ hnone
    have hr := hnone r hr
    rw [hverdict, List.map_eq_nil_iff] at hr
    exact hds hr

/-- The failures are those of the files. -/
theorem mem_failures {message : Text} :
    message ∈ failures results ↔ ∃ r ∈ results, r.2 = .error message := by
  rw [failures, Text.mem_sortUnique, List.mem_filterMap]
  refine exists_congr fun r => and_congr_right fun _ => ?_
  cases r.2 <;> simp [failureOf?]

theorem failures_ne_nil_iff : failures results ≠ [] ↔ AnyFailed results := by
  constructor
  · intro hne
    obtain ⟨message, hmessage⟩ := List.exists_mem_of_ne_nil _ hne
    obtain ⟨r, hr, hverdict⟩ := mem_failures.1 hmessage
    exact ⟨r, hr, message, hverdict⟩
  · rintro ⟨r, hr, message, hverdict⟩
    exact List.ne_nil_of_mem (mem_failures.2 ⟨r, hr, hverdict⟩)

theorem errorCount_pos_iff : 0 < errorCount results ↔ AnyBroken results := by
  rw [errorCount_eq, List.length_pos_iff, found_ne_nil_iff]

/-- Without failures and diagnostics every file is clean. -/
theorem clean_iff :
    (¬ AnyFailed results ∧ ¬ AnyBroken results) ↔ ∀ r ∈ results, r.2 = .ok [] := by
  constructor
  · rintro ⟨hfailed, hbroken⟩ r hr
    cases hverdict : r.2 with
    | error message => exact absurd ⟨r, hr, message, hverdict⟩ hfailed
    | ok ds =>
      by_contra hds
      exact hbroken ⟨r, hr, ds, hverdict, fun hnil => hds (by rw [hnil])⟩
  · intro hclean
    constructor
    · rintro ⟨r, hr, message, hverdict⟩
      rw [hclean r hr] at hverdict
      cases hverdict
    · rintro ⟨r, hr, ds, hverdict, hds⟩
      rw [hclean r hr] at hverdict
      cases hverdict
      exact hds rfl

/-! ## Decisions -/

/-- The exit code follows from failures, then from diagnostics. -/
theorem exitCode_cases (results : List (Path × Verdict)) :
    (AnyFailed results ∧ exitCode results = 2) ∨
    (¬ AnyFailed results ∧ AnyBroken results ∧ exitCode results = 1) ∨
    (¬ AnyFailed results ∧ ¬ AnyBroken results ∧ exitCode results = 0) := by
  unfold exitCode
  by_cases hfailed : AnyFailed results
  · have hne := failures_ne_nil_iff.2 hfailed
    refine .inl ⟨hfailed, if_pos ?_⟩
    simpa using hne
  · have hnil : failures results = [] := by
      simpa using mt failures_ne_nil_iff.1 hfailed
    rw [hnil, if_neg (by simp)]
    by_cases hbroken : AnyBroken results
    · exact .inr (.inl ⟨hfailed, hbroken, if_pos (errorCount_pos_iff.2 hbroken)⟩)
    · exact .inr (.inr ⟨hfailed, hbroken, if_neg (mt errorCount_pos_iff.1 hbroken)⟩)

theorem exitCode_eq_two_iff : exitCode results = 2 ↔ AnyFailed results := by
  rcases exitCode_cases results with ⟨hfailed, hcode⟩ | ⟨hfailed, -, hcode⟩ |
    ⟨hfailed, -, hcode⟩ <;> simp [hcode, hfailed]

theorem exitCode_eq_one_iff :
    exitCode results = 1 ↔ ¬ AnyFailed results ∧ AnyBroken results := by
  rcases exitCode_cases results with ⟨hfailed, hcode⟩ | ⟨hfailed, hbroken, hcode⟩ |
    ⟨hfailed, hbroken, hcode⟩
  · simp [hcode, hfailed]
  · simp [hcode, hfailed, hbroken]
  · simp [hcode, hbroken]

theorem exitCode_eq_zero_iff :
    exitCode results = 0 ↔ ¬ AnyFailed results ∧ ¬ AnyBroken results := by
  rcases exitCode_cases results with ⟨hfailed, hcode⟩ | ⟨-, hbroken, hcode⟩ |
    ⟨hfailed, hbroken, hcode⟩
  · simp [hcode, hfailed]
  · simp [hcode, hbroken]
  · simp [hcode, hfailed, hbroken]

/-- The last line counts what was found. -/
theorem summary_of_broken (p : Palette) (hbroken : AnyBroken results) :
    summary p results =
      "\n" ++ Command.line (p.issues ++ " Found " ++ Text.decimal (found results).length ++
        " error(s) in " ++ Text.decimal (broken results).length ++ " file(s) (" ++
        Text.decimal results.length ++ " file(s) checked)") := by
  rw [summary, if_pos (errorCount_pos_iff.2 hbroken), issuesLine, errorCount_eq, brokenCount_eq]

/-- The last line announces success when there is nothing else to tell. -/
theorem summary_of_clean (p : Palette) (hfailed : ¬ AnyFailed results)
    (hbroken : ¬ AnyBroken results) : summary p results = successLine p results := by
  have hnil : failures results = [] := by
    simpa using mt failures_ne_nil_iff.1 hfailed
  rw [summary, if_neg (mt errorCount_pos_iff.1 hbroken), hnil]
  rfl

/-- There is no last line when only failures are to be told. -/
theorem summary_of_failed (p : Palette) (hbroken : ¬ AnyBroken results)
    (hfailed : AnyFailed results) : summary p results = [] := by
  have hne := failures_ne_nil_iff.2 hfailed
  rw [summary, if_neg (mt errorCount_pos_iff.1 hbroken), if_neg (by simpa using hne)]

/-! ## What is printed -/

/-- On files the output is what was found, unless it is to be left out, and the last line. -/
theorem stdout_of_ne_nil (p : Palette) (quiet : Bool) (hne : results ≠ []) :
    (report p quiet results).stdout =
      (if quiet then [] else
        ((found results).map fun e => diagnosticLine p e.1 e.2).flatten) ++ summary p results := by
  rw [report, if_neg (by simpa using hne), diagnosticLines_eq]

/-- The failures are named once each, in the order of their bytes. -/
theorem stderr_eq (p : Palette) (quiet : Bool) (results : List (Path × Verdict)) :
    (report p quiet results).stderr = (failures results).flatMap (Command.errorLine p) := by
  unfold report
  cases results with
  | nil => rw [failures_nil]; rfl
  | cons r rs => rfl

theorem failures_ascending (results : List (Path × Verdict)) :
    (failures results).Pairwise fun a b => Utf8.encode a < Utf8.encode b :=
  (Text.ascending_sortUnique _).imp Text.encode_lt_of_compare

/-- Texts that go up by their bytes are settled by their members. -/
theorem eq_of_ascending {l l' : List Text}
    (h : l.Pairwise fun a b => Utf8.encode a < Utf8.encode b)
    (h' : l'.Pairwise fun a b => Utf8.encode a < Utf8.encode b) (hmem : ∀ t, t ∈ l ↔ t ∈ l') :
    l = l' := by
  have hnodup : ∀ {k : List Text}, (k.Pairwise fun a b => Utf8.encode a < Utf8.encode b) →
      k.Nodup := fun hk => hk.imp fun {a b} hlt heq => by
    rw [heq] at hlt
    exact List.lt_irrefl _ hlt
  have hperm : l.Perm l' := (List.perm_ext_iff_of_nodup (hnodup h) (hnodup h')).2 hmem
  exact hperm.eq_of_pairwise (fun a b _ _ hab hba => absurd hba (List.lt_asymm hab)) h h'

/-- Texts that end differently are no ends of each other. -/
theorem not_suffix_of_ends {s t e e' : Text} (hs : e <:+ s) (ht : e' <:+ t)
    (hlength : e.length = e'.length) (hne : e ≠ e') : ¬ s <:+ t := by
  intro hsuffix
  have he : e <:+ e' := List.suffix_of_suffix_length_le (hs.trans hsuffix) ht hlength.le
  exact hne (he.eq_of_length hlength)

theorem successLine_ends (p : Palette) (results : List (Path × Verdict)) :
    "file(s)\n".toList <:+ successLine p results :=
  ⟨p.success ++ " No syntax errors found in " ++ Text.decimal results.length ++ " ",
    by simp [successLine, Command.line]⟩

theorem successLine_ne_nil (p : Palette) (results : List (Path × Verdict)) :
    successLine p results ≠ [] := by
  intro hnil
  have hends := successLine_ends p results
  rw [hnil, List.suffix_nil] at hends
  exact absurd hends (by simp)

/-- Success is announced exactly when the exit code says so and there is a file. -/
theorem successLine_suffix_iff (p : Palette) (quiet : Bool) (results : List (Path × Verdict)) :
    successLine p results <:+ (report p quiet results).stdout ↔
      (report p quiet results).exitCode = 0 ∧ results ≠ [] := by
  rw [exitCode_report, exitCode_eq_zero_iff]
  by_cases hne : results = []
  · subst hne
    refine iff_of_false (fun hsuffix => ?_) fun h => h.2 rfl
    cases quiet with
    | true => exact successLine_ne_nil p [] (List.suffix_nil.1 hsuffix)
    | false =>
      have hends : "s found\n".toList <:+ (report p false []).stdout := ⟨"No fish file".toList, rfl⟩
      exact not_suffix_of_ends (successLine_ends p []) hends (by simp) (by simp) hsuffix
  rw [stdout_of_ne_nil p quiet hne]
  by_cases hbroken : AnyBroken results
  · -- the counts are the last line
    refine iff_of_false (fun hsuffix => ?_) fun h => h.1.2 hbroken
    have hends : "hecked)\n".toList <:+ summary p results := by
      rw [summary_of_broken p hbroken]
      exact ⟨"\n" ++ (p.issues ++ " Found " ++ Text.decimal (found results).length ++
        " error(s) in " ++ Text.decimal (broken results).length ++ " file(s) (" ++
        Text.decimal results.length ++ " file(s) c"), by simp [Command.line]⟩
    have hlast := hends.trans (List.suffix_append (if quiet then [] else
      ((found results).map fun e => diagnosticLine p e.1 e.2).flatten) (summary p results))
    exact not_suffix_of_ends (successLine_ends p results) hlast (by simp) (by simp) hsuffix
  by_cases hfailed : AnyFailed results
  · -- nothing is printed at all
    refine iff_of_false (fun hsuffix => ?_) fun h => h.1.1 hfailed
    have hnone : found results = [] := by
      simpa using mt found_ne_nil_iff.1 hbroken
    have hstdout : (if quiet then [] else
        ((found results).map fun e => diagnosticLine p e.1 e.2).flatten) ++ summary p results =
          [] := by
      rw [hnone, summary_of_failed p hbroken hfailed]
      cases quiet <;> rfl
    rw [hstdout, List.suffix_nil] at hsuffix
    exact successLine_ne_nil p results hsuffix
  · rw [summary_of_clean p hfailed hbroken]
    exact iff_of_true (List.suffix_append _ _) ⟨⟨hfailed, hbroken⟩, hne⟩

end Verdicts

/-! ## Accounts -/

/-- Two reports on checked files, a full one and a quiet one, account for what was found. -/
structure Accounts (p : Palette) (results : List (Path × Verdict)) (loud hushed : Report) :
    Prop where
  /-- The exit code is 2 exactly if a file failed. -/
  failed_iff : loud.exitCode = 2 ↔ AnyFailed results
  /-- The exit code is 1 exactly if no file failed and one has a diagnostic. -/
  broken_iff : loud.exitCode = 1 ↔ ¬ AnyFailed results ∧ AnyBroken results
  /-- The exit code is 0 exactly if every file is clean. -/
  clean_iff : loud.exitCode = 0 ↔ ∀ r ∈ results, r.2 = .ok []
  /-- The failures are named once each, in the order of the bytes of their texts. -/
  named : ∃ messages : List Text,
    messages.Pairwise (fun a b => Utf8.encode a < Utf8.encode b) ∧
    (∀ message, message ∈ messages ↔ ∃ r ∈ results, r.2 = .error message) ∧
    loud.stderr = (messages.map fun message =>
      Command.line (p.error ++ ": " ++ message)).flatten
  /-- Without files there is nothing to tell but this. -/
  empty : results = [] → loud.stdout = Command.line "No fish files found" ∧ hushed.stdout = []
  /-- The full output lists every diagnostic once, by files and then in the checker's order,
  and goes on as the quiet one. -/
  listed : results ≠ [] → loud.stdout =
    ((found results).map fun e => diagnosticLine p e.1 e.2).flatten ++ hushed.stdout
  /-- The last line counts the diagnostics, the files that have one and all files. -/
  counted : AnyBroken results → hushed.stdout =
    "\n" ++ Command.line (p.issues ++ " Found " ++ Text.decimal (found results).length ++
      " error(s) in " ++ Text.decimal (broken results).length ++ " file(s) (" ++
      Text.decimal results.length ++ " file(s) checked)")
  /-- There is no last line when only failures are to be told. -/
  silent : ¬ AnyBroken results → AnyFailed results → hushed.stdout = []
  /-- The last line announces success when all files are clean. -/
  announced : loud.exitCode = 0 → results ≠ [] → hushed.stdout =
    Command.line (p.success ++ " No syntax errors found in " ++ Text.decimal results.length ++
      " file(s)")
  /-- Success is announced exactly when the exit code is 0 and there are files. -/
  announced_iff : ∀ report ∈ [loud, hushed],
    Command.line (p.success ++ " No syntax errors found in " ++ Text.decimal results.length ++
      " file(s)") <:+ report.stdout ↔ loud.exitCode = 0 ∧ results ≠ []
  /-- The quiet report has the exit code of the full one. -/
  exitCode_eq : hushed.exitCode = loud.exitCode
  /-- The quiet report names the failures of the full one. -/
  stderr_eq : hushed.stderr = loud.stderr

/-- The reports on any results account for them. -/
theorem accounts_report (p : Palette) (results : List (Path × Verdict)) :
    Accounts p results (report p false results) (report p true results) where
  failed_iff := by rw [exitCode_report, exitCode_eq_two_iff]
  broken_iff := by rw [exitCode_report, exitCode_eq_one_iff]
  clean_iff := by rw [exitCode_report, exitCode_eq_zero_iff, clean_iff]
  named := by
    refine ⟨failures results, failures_ascending results, fun message => mem_failures, ?_⟩
    rw [← List.flatMap_def]
    exact stderr_eq p false results
  empty hnil := by
    subst hnil
    exact ⟨rfl, rfl⟩
  listed hne := by
    rw [stdout_of_ne_nil p false hne, stdout_of_ne_nil p true hne]
    rfl
  counted hbroken := by
    obtain ⟨r, hr, -⟩ := id hbroken
    rw [stdout_of_ne_nil p true (List.ne_nil_of_mem hr), summary_of_broken p hbroken]
    rfl
  silent hbroken hfailed := by
    obtain ⟨r, hr, -⟩ := id hfailed
    rw [stdout_of_ne_nil p true (List.ne_nil_of_mem hr), summary_of_failed p hbroken hfailed]
    rfl
  announced hcode hne := by
    rw [exitCode_report, exitCode_eq_zero_iff] at hcode
    rw [stdout_of_ne_nil p true hne, summary_of_clean p hcode.1 hcode.2]
    rfl
  announced_iff := by
    have hcode (quiet : Bool) :
        (report p false results).exitCode = (report p quiet results).exitCode :=
      (exitCode_report p false results).trans (exitCode_report p quiet results).symm
    simp only [List.forall_mem_cons, List.not_mem_nil, false_implies, implies_true, and_true]
    refine ⟨successLine_suffix_iff p false results, ?_⟩
    rw [hcode true]
    exact successLine_suffix_iff p true results
  exitCode_eq := (exitCode_report p true results).trans (exitCode_report p false results).symm
  stderr_eq := (stderr_eq p true results).trans (stderr_eq p false results).symm

/-! ## The command -/

section Command

variable {exec : Executor} {p : Palette} {h : Host} {o : Overrides} {args : List Text}
  {s : Settings} {paths : List Path}

/-- The command ends in the report on the files that its arguments stand for. -/
theorem run_eq_report (hs : Command.resolve h o = .ok s)
    (hfind : Discovery.find h.tree h.cwd args = .ok paths) (quiet : Bool) :
    run exec p h o args quiet =
      ((checkAll exec s h paths).1, report p quiet (checkAll exec s h paths).2) := by
  simp only [run, hs, hfind]

/-- The report accounts for every file and every diagnostic.  A check of files goes through
them one after the other: a file fails that cannot be read or whose checker run fails, and any
other has the diagnostics of this run.  With one result for each file, in their order, the check
ends in reports that account for these results; and so do the reports on any results. -/
theorem report_accounts (exec : Executor) (p : Palette) (h : Host) (o : Overrides)
    (args : List Text) :
    (∀ s paths, Command.resolve h o = .ok s → Discovery.find h.tree h.cwd args = .ok paths →
      ∃ after results, (after, results) = checkAll exec s h paths ∧
        Checks exec s h paths after results ∧ results.map Prod.fst = paths ∧
        (∀ quiet, run exec p h o args quiet = (after, report p quiet results)) ∧
        Accounts p results (run exec p h o args false).2 (run exec p h o args true).2) ∧
    ∀ results : List (Path × Verdict),
      Accounts p results (report p false results) (report p true results) := by
  refine ⟨fun s paths hs hfind => ?_, accounts_report p⟩
  have hchecks := checks_checkAll exec s h paths
  refine ⟨_, _, rfl, hchecks, hchecks.map_fst, run_eq_report hs hfind, ?_⟩
  rw [run_eq_report hs hfind, run_eq_report hs hfind]
  exact accounts_report p _

/-! ## A mixture of files -/

/-- A host with five files, of which the last one is no text. -/
def mixedHost : Host :=
  { tree := ⟨⟨[([Utf8.encode "a.fish"], .file (Utf8.encode "end\n") false),
      ([Utf8.encode "b.fish"], .file (Utf8.encode "end\n") false),
      ([Utf8.encode "c.fish"], .file [] false), ([Utf8.encode "d.fish"], .file [] false),
      ([Utf8.encode "e.fish"], .file [0xFF] false)]⟩⟩ }

/-- A checker that complains about one file, is content with another one and cannot be run on
any other. -/
def mixedChecker : Executor := fun h i =>
  if i.args = ["-n", "/b.fish"] then (h, .ok ⟨127, [], Utf8.encode "/b.fish (line 1): oops\n"⟩)
  else if i.args = ["-n", "/c.fish"] then (h, .ok ⟨0, [], []⟩)
  else (h, .error (.notFound i.program))

/-- The checker has no effects. -/
theorem outcome_mixedChecker (h : Host) (i : Invocation) : (mixedChecker.outcome h i).1 = h := by
  simp only [Executor.outcome, mixedChecker]
  split
  · rfl
  · split <;> rfl

/-- A file of the host is given to the checker, and what the run says is its verdict. -/
theorem checkFile_mixed (path file : Path) (text : Text) (verdict : Verdict)
    (hname : Tree.IsName path)
    (hnode : mixedHost.tree.node? [path.bytes] = some (.file (Utf8.encode text) false))
    (hfile : target? mixedHost path = some file)
    (hverdict : (Lint.conclude (Command.homeOf mixedHost) text file
      (mixedChecker.outcome mixedHost
        (Lint.invocation {} (Command.directoryOf mixedHost) file)).2).mapError Failure.message =
      verdict) : checkFile mixedChecker {} mixedHost path = (mixedHost, verdict) := by
  rw [checkFile_of_text mixedChecker {} (Command.readText_of_name hname hnode) hfile, hverdict,
    outcome_mixedChecker]

/-- What the check of the files finds. -/
def mixedResults : List (Path × Verdict) :=
  [("a.fish", .error (Failure.notFound "fish").message),
    ("b.fish", .ok [⟨⟨⟨0, 0⟩, ⟨0, 3⟩⟩, "oops"⟩]), ("c.fish", .ok []),
    ("d.fish", .error (Failure.notFound "fish").message),
    ("e.fish", .error "Failed to read e.fish: stream did not contain valid UTF-8")]

theorem checkAll_mixed :
    checkAll mixedChecker {} mixedHost (mixedResults.map Prod.fst) = (mixedHost, mixedResults) := by
  have ha := checkFile_mixed "a.fish" "/a.fish" "end\n" (.error (Failure.notFound "fish").message)
    (by decide +kernel) (by decide +kernel) (by decide +kernel) (by decide +kernel)
  have hb := checkFile_mixed "b.fish" "/b.fish" "end\n" (.ok [⟨⟨⟨0, 0⟩, ⟨0, 3⟩⟩, "oops"⟩])
    (by decide +kernel) (by decide +kernel) (by decide +kernel) (by decide +kernel)
  have hc := checkFile_mixed "c.fish" "/c.fish" [] (.ok [])
    (by decide +kernel) (by decide +kernel) (by decide +kernel) (by decide +kernel)
  have hd := checkFile_mixed "d.fish" "/d.fish" [] (.error (Failure.notFound "fish").message)
    (by decide +kernel) (by decide +kernel) (by decide +kernel) (by decide +kernel)
  have hnode : mixedHost.tree.node? [Utf8.encode "e.fish"] = some (.file [0xFF] false) := by
    decide +kernel
  have hread : Command.readText mixedHost "e.fish" =
      .error "Failed to read e.fish: stream did not contain valid UTF-8" :=
    Command.readText_of_ill_formed (by decide +kernel) hnode (by decide +kernel)
  have he := checkFile_of_unreadable mixedChecker {} hread
  simp only [mixedResults, List.map_cons, List.map_nil, checkAll, ha, hb, hc, hd, he]

/-- The failures among what is found. -/
theorem mem_errors_mixed {message : Text} :
    (∃ r ∈ mixedResults, r.2 = .error message) ↔
      message ∈ [(Failure.notFound "fish").message,
        ("Failed to read e.fish: stream did not contain valid UTF-8" : Text)] := by
  simp only [mixedResults, List.mem_cons, List.not_mem_nil, or_false]
  generalize (Failure.notFound "fish").message = missing
  grind

/-- Five files, of which one has a diagnostic, one is clean and one is no text; the checker
cannot be run on the other two, which is one failure and told once. -/
theorem report_accounts_of_mixture :
    let args : List Text := ["a.fish", "b.fish", "c.fish", "d.fish", "e.fish"]
    let paths : List Path := ["a.fish", "b.fish", "c.fish", "d.fish", "e.fish"]
    let missing : Text := (Failure.notFound "fish").message
    let noText : Text := "Failed to read e.fish: stream did not contain valid UTF-8"
    Command.resolve mixedHost {} = .ok {} ∧
    Discovery.find mixedHost.tree mixedHost.cwd args = .ok paths ∧
    Checks mixedChecker {} mixedHost paths mixedHost mixedResults ∧
    mixedResults ≠ [] ∧ AnyFailed mixedResults ∧ AnyBroken mixedResults ∧
    (run mixedChecker {} mixedHost {} args false).2.exitCode = 2 ∧
    (run mixedChecker {} mixedHost {} args false).2.stderr =
      Command.line ("Error: " ++ missing) ++ Command.line ("Error: " ++ noText) ∧
    (run mixedChecker {} mixedHost {} args false).2.stdout =
      diagnosticLine {} "b.fish" ⟨⟨⟨0, 0⟩, ⟨0, 3⟩⟩, "oops"⟩ ++
        (run mixedChecker {} mixedHost {} args true).2.stdout ∧
    (run mixedChecker {} mixedHost {} args true).2.stdout =
      "\n" ++ Command.line ("Issues: Found " ++ Text.decimal 1 ++ " error(s) in " ++
        Text.decimal 1 ++ " file(s) (" ++ Text.decimal 5 ++ " file(s) checked)") := by
  intro args paths missing noText
  have hs : Command.resolve mixedHost {} = .ok {} := Command.resolve_of_free (by decide +kernel)
  have hfind : Discovery.find mixedHost.tree mixedHost.cwd args = .ok paths :=
    (Formatting.selection_of_names (by decide +kernel) (by decide +kernel)
      (by decide +kernel)).1
  have hfailed : AnyFailed mixedResults := ⟨_, List.mem_cons_self, missing, rfl⟩
  have hbroken : AnyBroken mixedResults :=
    ⟨_, List.mem_cons_of_mem _ List.mem_cons_self, _, rfl, by simp⟩
  have hne : mixedResults ≠ [] := List.cons_ne_nil _ _
  obtain ⟨hrun, -⟩ := report_accounts mixedChecker {} mixedHost {} args
  obtain ⟨after, results, heq, hchecks, -, -, haccounts⟩ := hrun {} paths hs hfind
  obtain ⟨rfl, rfl⟩ := Prod.mk.inj (heq.trans checkAll_mixed)
  obtain ⟨messages, hsorted, hmem, hstderr⟩ := haccounts.named
  have hmessages : messages = [missing, noText] :=
    eq_of_ascending hsorted (by decide +kernel) fun m => (hmem m).trans mem_errors_mixed
  have hfound : found mixedResults = [(("b.fish" : Path), ⟨⟨⟨0, 0⟩, ⟨0, 3⟩⟩, "oops"⟩)] := rfl
  refine ⟨hs, hfind, hchecks, hne, hfailed, hbroken, haccounts.failed_iff.2 hfailed, ?_, ?_,
    haccounts.counted hbroken⟩
  · rw [hstderr, hmessages]
    rfl
  · rw [haccounts.listed hne, hfound]
    simp only [List.map_cons, List.map_nil, List.flatten_cons, List.flatten_nil, List.append_nil]

end Command

end Check

end FishCheck
