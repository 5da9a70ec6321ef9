import FishCheck.Proofs.Command.Installing

/-!
# A check predicts the formatting

With a formatter that is a function of the text, what becomes of each file can be foretold
from the text it has at the beginning.  A check and the formatting itself come to the same
results, in whatever order the work on the files goes, and their reports say so.  If the
formatter leaves its own output alone, nothing is left to do after the formatting.

Main results:

- Theorem `results_of_computes`: every way of formatting comes to the foretold results.
- Theorems `stdout_foretold` and `exitCode_foretold`: the report on foretold results.
- Theorem `foretold_again`: after the formatting, no change is foretold.
- Theorem `ends_again`: after the formatting, nothing is left to do.
- Theorem `check_predicts_formatting`: what a check says, what the formatting does, and what
  is left to do after it.
-/

namespace FishCheck

namespace Formatting

/-! ## What is foretold -/

section Foretold

variable (f : Text → Except Failure Output) (h : Host)

/-- The account of a file under a formatter that is a function of the text. -/
def foretold (path : Path) : Account :=
  match Command.readText h path with
  | .ok text => .answered text (f text)
  | .error message => .unreadable message

/-- The paths of the files that are to change. -/
def foretoldChanges (paths : List Path) : List Path :=
  paths.filter fun path => (foretold f h path).verdict.isChange

/-- The paths of the files that are rejected or fail. -/
def foretoldProblems (paths : List Path) : List Path :=
  paths.filter fun path => (foretold f h path).verdict.isProblem

/-- The foretold results of all files. -/
def foretoldResults (paths : List Path) : List (Path × Verdict) :=
  paths.map fun path => (path, (foretold f h path).verdict)

end Foretold

/-- The formatter writes no file itself and is a function of the text. -/
def Computes (exec : Executor) (s : Settings) (h : Host) (paths : List Path)
    (f : Text → Except Failure Output) : Prop :=
  ∀ t text, Variant h paths t →
    exec { h with tree := t } (wholeRun s h text) = ({ h with tree := t }, f text)

/-- The formatter succeeds on its own output and returns it unchanged. -/
def LeavesOutput (f : Text → Except Failure Output) : Prop :=
  ∀ text o, f text = .ok o → o.exitCode = 0 →
    ∃ o', f (Utf8.lenient o.stdout) = .ok o' ∧ o'.exitCode = 0 ∧
      Utf8.lenient o'.stdout = Utf8.lenient o.stdout

section Results

variable {exec : Executor} {s : Settings} {check : Bool} {h : Host} {paths : List Path}
  {f : Text → Except Failure Output} {b : Batch}

theorem Computes.keeps (hcomputes : Computes exec s h paths f) : Keeps exec s h paths := by
  intro t text ht
  rw [hcomputes t text ht]

/-- The account of a file is the foretold one. -/
theorem Alone.eq_foretold {after : Tree} {path : Path} {account : Account}
    (hcomputes : Computes exec s h paths f)
    (ha : Alone exec s check h paths after path account) : account = foretold f h path := by
  unfold foretold
  cases account with
  | unreadable message =>
    have hread : Command.readText h path = .error message := ha.read.symm
    rw [hread]
  | answered text result =>
    have hread : Command.readText h path = .ok text := ha.read.symm
    obtain ⟨t, ht, rfl⟩ := ha.ran text result rfl
    rw [hread, hcomputes t text ht]

/-- Every way of formatting comes to the foretold results. -/
theorem results_of_computes (hfiles : AreFiles h paths) (hdistinct : AreDistinct h paths)
    (hcomputes : Computes exec s h paths f) (hb : Formats exec s check h paths b) :
    b.results = foretoldResults f h paths := by
  have horder := (sound_of_formats hfiles hcomputes.keeps hb).order
  rw [foretoldResults, ← horder, List.map_map, Batch.results, ← List.filterMap_eq_map]
  refine List.filterMap_congr fun job hjob => ?_
  obtain ⟨account, hstage, halone⟩ :=
    alone_of_formats hfiles hdistinct hcomputes.keeps hb hjob
  rw [halone.eq_foretold hcomputes] at hstage
  simp only [Job.result?, hstage, Function.comp_apply]

end Results

/-! ## Reports -/

section Reports

variable (p : Palette) (f : Text → Except Failure Output) (h : Host) (paths : List Path)

/-- The foretold changes make up the output. -/
theorem stdout_foretold (check : Bool) :
    (report p check (foretoldResults f h paths)).stdout =
      ((foretoldChanges f h paths).map fun path => Command.line
        ((if check then "Would reformat: ".toList else "Formatted: ".toList) ++
          path.toText)).flatten ++
      Command.line (Text.decimal (foretoldChanges f h paths).length ++ " file(s) " ++
        (if check then "would be reformatted".toList else "reformatted".toList) ++ ", " ++
        Text.decimal (paths.length - (foretoldChanges f h paths).length) ++
        " file(s) left unchanged") := by
  have hcount : changeCount (foretoldResults f h paths) = (foretoldChanges f h paths).length := by
    rw [changeCount, foretoldResults, List.countP_map, foretoldChanges, List.countP_eq_length_filter]
    rfl
  have hlines : (foretoldResults f h paths).filterMap (changeLine check) =
      (foretoldChanges f h paths).map fun path => Command.line
        ((if check then "Would reformat: ".toList else "Formatted: ".toList) ++ path.toText) := by
    rw [foretoldResults, List.filterMap_map, foretoldChanges, ← List.filterMap_eq_map,
      List.filterMap_filter]
    refine List.filterMap_congr fun path _ => ?_
    simp only [Function.comp_apply, changeLine]
  have hlength : (foretoldResults f h paths).length = paths.length := by simp [foretoldResults]
  simp only [report, summary, hcount, hlines, hlength]

/-- The foretold problems make up the error output. -/
theorem stderr_foretold (check : Bool) :
    (report p check (foretoldResults f h paths)).stderr =
      ((foretoldResults f h paths).filterMap (problemLine p)).flatten := rfl

/-- The foretold problems and changes make up the exit code. -/
theorem exitCode_foretold (check : Bool) :
    (report p check (foretoldResults f h paths)).exitCode =
      if foretoldProblems f h paths ≠ [] then 2
      else if check = true ∧ foretoldChanges f h paths ≠ [] then 1 else 0 := by
  have hproblems : (foretoldResults f h paths).any (fun r => r.2.isProblem) = true ↔
      foretoldProblems f h paths ≠ [] := by
    simp [foretoldResults, foretoldProblems]
  have hchanges : 0 < changeCount (foretoldResults f h paths) ↔
      foretoldChanges f h paths ≠ [] := by
    rw [changeCount, foretoldResults, List.countP_map, foretoldChanges,
      List.countP_eq_length_filter, List.length_pos_iff]
    rfl
  simp only [report, exitCode, hproblems, Bool.and_eq_true, decide_eq_true_eq, hchanges]
  rfl

/-- The report that no file changes and that there are no problems. -/
def quietReport (check : Bool) (count : Nat) : Report where
  exitCode := 0
  stdout := Command.line ("0 file(s) " ++
    (if check then "would be reformatted".toList else "reformatted".toList) ++ ", " ++
    Text.decimal count ++ " file(s) left unchanged")

variable {f h paths}

/-- The report where no change is foretold. -/
theorem report_quiet (check : Bool)
    (hquiet : ∀ path ∈ paths, (foretold f h path).verdict = .unchanged) :
    report p check (foretoldResults f h paths) = quietReport check paths.length := by
  have hchanges : foretoldChanges f h paths = [] :=
    List.filter_eq_nil_iff.2 fun path hpath => by simp [hquiet path hpath, Verdict.isChange]
  have hproblems : foretoldProblems f h paths = [] :=
    List.filter_eq_nil_iff.2 fun path hpath => by simp [hquiet path hpath, Verdict.isProblem]
  have hzero : Text.decimal 0 ++ " file(s) ".toList = "0 file(s) ".toList := by decide +kernel
  have hexit : (report p check (foretoldResults f h paths)).exitCode = 0 := by
    simp [exitCode_foretold, hproblems, hchanges]
  have hout : (report p check (foretoldResults f h paths)).stdout =
      (quietReport check paths.length).stdout := by
    rw [stdout_foretold, hchanges, List.map_nil, List.flatten_nil, List.nil_append,
      List.length_nil, hzero, Nat.sub_zero, quietReport]
  have herr : (report p check (foretoldResults f h paths)).stderr = [] := by
    rw [stderr_foretold, List.flatten_eq_nil_iff]
    intro line hline
    obtain ⟨r, hr, hproblem⟩ := List.mem_filterMap.1 hline
    obtain ⟨path, hpath, rfl⟩ := List.mem_map.1 hr
    simp [problemLine, hquiet path hpath] at hproblem
  have hfields (r : Report) : r = ⟨r.exitCode, r.stdout, r.stderr⟩ := rfl
  rw [hfields (report p check _), hexit, hout, herr]
  rfl

end Reports

/-! ## After the formatting -/

section Again

variable {exec : Executor} {s : Settings} {h : Host} {paths : List Path}
  {f : Text → Except Failure Output} {t : Tree}

/-- A verdict without a problem is about a text on which the formatter succeeds. -/
theorem success_of_no_problem {path : Path}
    (hgood : (foretold f h path).verdict.isProblem = false) :
    ∃ text o, Command.readText h path = .ok text ∧ f text = .ok o ∧ o.exitCode = 0 := by
  unfold foretold at hgood
  split at hgood
  · rename_i text hread
    simp only [Account.verdict, judge] at hgood
    split at hgood
    · rename_i formatted hnew
      obtain ⟨o, ho, hcode, -⟩ := newText_eq_some_iff.1 hnew
      exact ⟨text, o, hread, ho, hcode⟩
    · cases hgood
    · cases hgood
  · cases hgood

/-- A text on which the formatter succeeds changes if its output is another one. -/
theorem foretold_verdict {path : Path} {text : Text} {o : Output}
    (hread : Command.readText h path = .ok text) (ho : f text = .ok o) (hcode : o.exitCode = 0) :
    (foretold f h path).verdict =
      if Utf8.lenient o.stdout = text then .unchanged else .changed (Utf8.lenient o.stdout) := by
  simp only [foretold, hread, Account.verdict, ho, newText_of_success hcode, judge]

/-- After the formatting, no change is foretold. -/
theorem foretold_again {path : Path} (hleaves : LeavesOutput f)
    (hfile : h.tree.isFile h.cwd path = true) (hshape : t.shape = h.tree.shape)
    (halone : Alone exec s false h paths t path (foretold f h path))
    (hgood : (foretold f h path).verdict.isProblem = false) :
    (foretold f { h with tree := t } path).verdict = .unchanged := by
  obtain ⟨text, o, hread, ho, hcode⟩ := success_of_no_problem hgood
  obtain ⟨l, hat⟩ := Command.fileAt_of_readText hfile hread
  obtain ⟨content, executable, hfind⟩ := Tree.fileAt_eq_some_iff.1 hat
  have hnode := Tree.node_of_find hfind
  obtain rfl := Command.node_of_readText hat hnode hread
  -- the file holds the output now, if it did not already
  have hheld : t.node? l = some (.file (Utf8.encode (Utf8.lenient o.stdout)) executable) := by
    rw [halone.held l hat, hnode, foretold_verdict hread ho hcode]
    by_cases hsame : Utf8.lenient o.stdout = text
    · simp [hsame, Verdict.written?]
    · simp [hsame, Verdict.written?, Node.refill]
  have hread' : Command.readText { h with tree := t } path = .ok (Utf8.lenient o.stdout) :=
    Command.readText_of_node ((Tree.fileAt_eq_of_shape hshape).trans hat) hheld
  obtain ⟨o', ho', hcode', hsame⟩ := hleaves text o ho hcode
  rw [foretold_verdict hread' ho' hcode', if_pos hsame]

/-- A variant of a variant is a variant. -/
theorem Variant.trans {u : Tree} (ht : Variant h paths t)
    (hu : Variant { h with tree := t } paths u) : Variant h paths u where
  shape := hu.shape.trans ht.shape
  rest l hl := by
    have hselects : ¬ Selects { h with tree := t } paths l := by
      rintro ⟨path, hpath, hat⟩
      exact hl ⟨path, hpath, (Tree.fileAt_eq_of_shape ht.shape).symm.trans hat⟩
    rw [hu.rest l hselects, ht.rest l hl]

/-- The assumptions hold on for the files of a variant. -/
theorem Variant.carries (ht : Variant h paths t) (hfiles : AreFiles h paths)
    (hdistinct : AreDistinct h paths) (hcomputes : Computes exec s h paths f) :
    AreFiles { h with tree := t } paths ∧ AreDistinct { h with tree := t } paths ∧
      Computes exec s { h with tree := t } paths f := by
  refine ⟨?_, ?_, ?_⟩
  · intro path hpath
    exact (Tree.isFile_eq_of_shape ht.shape).trans (hfiles path hpath)
  · have hat (p : Path) : t.fileAt? h.cwd p = h.tree.fileAt? h.cwd p :=
      Tree.fileAt_eq_of_shape ht.shape
    simpa only [AreDistinct, hat] using hdistinct
  · intro u text hu
    exact hcomputes u text (ht.trans hu)

end Again

/-! ## The command -/

/-- One of the ways in which formatting files can end: the host afterwards and the report. -/
def Ends (exec : Executor) (p : Palette) (s : Settings) (check : Bool) (h : Host)
    (paths : List Path) (result : Host × Report) : Prop :=
  ∃ b, Formats exec s check h paths b ∧ result = (b.host, report p check b.results)

section Command

variable {exec : Executor} {p : Palette} {s : Settings} {h : Host} {o : Overrides}
  {args : List Text} {paths : List Path} {f : Text → Except Failure Output}

/-- The two modes say by their exit codes whether there were problems, and the check whether
there are changes. -/
theorem exitCodes_foretold (p : Palette) (f : Text → Except Failure Output) (h : Host)
    (paths : List Path) :
    let checked := (report p true (foretoldResults f h paths)).exitCode
    let formatted := (report p false (foretoldResults f h paths)).exitCode
    (checked = 2 ↔ foretoldProblems f h paths ≠ []) ∧
    (formatted = 2 ↔ foretoldProblems f h paths ≠ []) ∧
    (foretoldProblems f h paths = [] →
      checked = (if foretoldChanges f h paths = [] then 0 else 1) ∧ formatted = 0) := by
  simp only [exitCode_foretold]
  by_cases hproblems : foretoldProblems f h paths = []
  · by_cases hchanges : foretoldChanges f h paths = [] <;> simp [hproblems, hchanges]
  · simp [hproblems]

/-- Where no change is foretold, nothing happens and nothing is reported. -/
theorem ends_quietly (hfiles : AreFiles h paths) (hdistinct : AreDistinct h paths)
    (hcomputes : Computes exec s h paths f)
    (hquiet : ∀ path ∈ paths, (foretold f h path).verdict = .unchanged) {check : Bool}
    {result : Host × Report} (hend : Ends exec p s check h paths result) :
    result = (h, quietReport check paths.length) := by
  obtain ⟨b, hb, rfl⟩ := hend
  have hhost : b.host = h := by
    refine host_of_nothing_written hfiles hcomputes.keeps hb fun job hjob => ?_
    obtain ⟨account, hstage, halone⟩ :=
      alone_of_formats hfiles hdistinct hcomputes.keeps hb hjob
    have horder := (sound_of_formats hfiles hcomputes.keeps hb).order
    have hpath : job.path ∈ paths := horder ▸ List.mem_map_of_mem hjob
    rw [halone.eq_foretold hcomputes, hquiet job.path hpath] at hstage
    rw [hstage]
    rfl
  rw [hhost, results_of_computes hfiles hdistinct hcomputes hb, report_quiet p check hquiet]

/-- After a formatting without problems, with a formatter that leaves its own output alone,
the same arguments stand for the same files and nothing is left to do. -/
theorem ends_again (hs : Command.resolve h o = .ok s)
    (hfind : Discovery.find h.tree h.cwd args = .ok paths) (hfiles : AreFiles h paths)
    (hdistinct : AreDistinct h paths) (hplain : ∀ l, Selects h paths l → ¬ Command.Steers h o l)
    (hcomputes : Computes exec s h paths f) (hleaves : LeavesOutput f)
    (hgood : foretoldProblems f h paths = []) {b : Batch} (hb : Formats exec s false h paths b) :
    Command.resolve b.host o = .ok s ∧ Discovery.find b.host.tree b.host.cwd args = .ok paths ∧
    ∀ check again, Ends exec p s check b.host paths again →
      again = (b.host, quietReport check paths.length) := by
  have hsound := sound_of_formats hfiles hcomputes.keeps hb
  have hvariant := hsound.variant
  have hsteers : ∀ l, Command.Steers h o l → b.host.tree.node? l = h.tree.node? l :=
    fun l hl => hvariant.rest l fun hselects => hplain l hselects hl
  obtain ⟨hs', hfind'⟩ := Command.same_start hvariant.shape hsteers args
  obtain ⟨hfiles', hdistinct', hcomputes'⟩ := hvariant.carries hfiles hdistinct hcomputes
  have hquiet : ∀ path ∈ paths,
      (foretold f { h with tree := b.host.tree } path).verdict = .unchanged := by
    intro path hpath
    obtain ⟨account, -, halone⟩ := exists_alone hfiles hdistinct hcomputes.keeps hb hpath
    obtain rfl := halone.eq_foretold hcomputes
    have hnone := List.filter_eq_nil_iff.1 hgood path hpath
    exact foretold_again hleaves (hfiles path hpath) hvariant.shape halone (by simpa using hnone)
  rw [hsound.host]
  exact ⟨hs'.trans hs, hfind'.trans hfind, fun _ _ hagain =>
    ends_quietly hfiles' hdistinct' hcomputes' hquiet hagain⟩

/-- A check predicts the formatting.  The paths lead to different files that are no ignore
files or settings, and the formatter is a function of the text that writes no file itself.
Then the check changes nothing and reports as files to change exactly those that the
formatting reports as changed; both report the same problems; both exit with 2 exactly if
there are problems, and without problems the check exits with 1 exactly if a file is to
change, and the formatting with 0.  If further the formatter leaves its own output alone and
there were no problems, then after the formatting a check or another formatting of the same
arguments changes and reports no file and exits with 0.  All this holds of every order in
which the work on the files can go. -/
theorem check_predicts_formatting (exec : Executor) (p : Palette) (h : Host) (o : Overrides)
    (args : List Text) (stdin : Bytes) (s : Settings) (paths : List Path)
    (f : Text → Except Failure Output) (hs : Command.resolve h o = .ok s)
    (hfind : Discovery.find h.tree h.cwd args = .ok paths) (hfiles : AreFiles h paths)
    (hdistinct : AreDistinct h paths) (hplain : ∀ l, Selects h paths l → ¬ Command.Steers h o l)
    (hcomputes : Computes exec s h paths f) :
    let changes := foretoldChanges f h paths
    let problems := foretoldProblems f h paths
    (∀ check, Ends exec p s check h paths (run exec p h o args check false stdin)) ∧
    ∀ checked formatted, Ends exec p s true h paths checked →
      Ends exec p s false h paths formatted →
      checked.1 = h ∧
      checked.2.stdout =
        (changes.map fun path => Command.line ("Would reformat: " ++ path.toText)).flatten ++
        Command.line (Text.decimal changes.length ++ " file(s) " ++ "would be reformatted" ++
          ", " ++ Text.decimal (paths.length - changes.length) ++ " file(s) left unchanged") ∧
      formatted.2.stdout =
        (changes.map fun path => Command.line ("Formatted: " ++ path.toText)).flatten ++
        Command.line (Text.decimal changes.length ++ " file(s) " ++ "reformatted" ++ ", " ++
          Text.decimal (paths.length - changes.length) ++ " file(s) left unchanged") ∧
      checked.2.stderr = ((foretoldResults f h paths).filterMap (problemLine p)).flatten ∧
      formatted.2.stderr = checked.2.stderr ∧
      (checked.2.exitCode = 2 ↔ problems ≠ []) ∧ (formatted.2.exitCode = 2 ↔ problems ≠ []) ∧
      (problems = [] → checked.2.exitCode = (if changes = [] then 0 else 1) ∧
        formatted.2.exitCode = 0) ∧
      (LeavesOutput f → problems = [] →
        Command.resolve formatted.1 o = .ok s ∧
        Discovery.find formatted.1.tree formatted.1.cwd args = .ok paths ∧
        ∀ check,
          Ends exec p s check formatted.1 paths
            (run exec p formatted.1 o args check false stdin) ∧
          ∀ again, Ends exec p s check formatted.1 paths again →
            again = (formatted.1, quietReport check paths.length)) := by
  intro changes problems
  refine ⟨fun check => run_eq_formats hs hfind check stdin, ?_⟩
  rintro checked formatted ⟨b, hb, rfl⟩ ⟨b', hb', rfl⟩
  have hresults := results_of_computes hfiles hdistinct hcomputes hb
  have hresults' := results_of_computes hfiles hdistinct hcomputes hb'
  obtain ⟨hchecked, hformatted, hgood⟩ := exitCodes_foretold p f h paths
  simp only [hresults, hresults']
  refine ⟨?_, stdout_foretold p f h paths true, stdout_foretold p f h paths false, rfl, rfl,
    hchecked, hformatted, hgood, fun hleaves hnone => ?_⟩
  · exact host_of_nothing_written hfiles hcomputes.keeps hb fun job _ => job.stage.written_check
  · obtain ⟨hs', hfind', hquiet⟩ :=
      ends_again hs hfind hfiles hdistinct hplain hcomputes hleaves hnone hb'
    exact ⟨hs', hfind', fun check => ⟨run_eq_formats hs' hfind' check stdin, hquiet check⟩⟩

/-- Of two files, one is to change; after the formatting there is nothing left to do. -/
theorem check_predicts_formatting_of_one_change :
    let f : Text → Except Failure Output := fun _ => .ok ⟨0, Utf8.encode "x\n", []⟩
    let exec : Executor := fun h i => (h, f (i.stdin.getD []))
    let h : Host := { tree := ⟨⟨[([Utf8.encode "a.fish"], .file (Utf8.encode "b\n") false),
      ([Utf8.encode "c.fish"], .file (Utf8.encode "x\n") false)]⟩⟩ }
    let args : List Text := ["a.fish".toList, "c.fish".toList]
    let paths : List Path := ["a.fish", "c.fish"]
    let formatted := run exec {} h {} args false false []
    Command.resolve h {} = .ok {} ∧ Discovery.find h.tree h.cwd args = .ok paths ∧
    AreFiles h paths ∧ AreDistinct h paths ∧
    (∀ l, Selects h paths l → ¬ Command.Steers h {} l) ∧ Computes exec {} h paths f ∧
    LeavesOutput f ∧ foretoldProblems f h paths = [] ∧
    foretoldChanges f h paths = [Path.ofText "a.fish"] ∧
    (run exec {} h {} args true false []).2.exitCode = 1 ∧ formatted.2.exitCode = 0 ∧
    run exec {} formatted.1 {} args true false [] = (formatted.1, quietReport true 2) := by
  intro f exec h args paths formatted
  have hsettings : h.tree.node? [Utf8.encode ".fishlint.toml"] = none := by decide +kernel
  have hs : Command.resolve h {} = .ok {} := Command.resolve_of_free hsettings
  obtain ⟨hfind, hfiles, hdistinct⟩ : Discovery.find h.tree h.cwd args = .ok paths ∧
      AreFiles h paths ∧ AreDistinct h paths :=
    selection_of_names (by decide +kernel) (by decide +kernel) (by decide +kernel)
  have hplain : ∀ l, Selects h paths l → ¬ Command.Steers h {} l := fun l _ =>
    Command.not_steers_of_free hsettings (by decide +kernel)
  have hcomputes : Computes exec {} h paths f := fun _ _ _ => rfl
  have hleaves : LeavesOutput f := fun _ _ ho _ => ⟨_, rfl, rfl, by cases ho; rfl⟩
  have hfirst : Command.readText h "a.fish" = .ok "b\n" := by
    have hnode : h.tree.node? [Utf8.encode "a.fish"] =
        some (.file (Utf8.encode "b\n") false) := by decide +kernel
    exact Command.readText_of_name (by decide +kernel) hnode
  have hsecond : Command.readText h "c.fish" = .ok "x\n" := by
    have hnode : h.tree.node? [Utf8.encode "c.fish"] =
        some (.file (Utf8.encode "x\n") false) := by decide +kernel
    exact Command.readText_of_name (by decide +kernel) hnode
  have houtput : Utf8.lenient (Utf8.encode "x\n") = "x\n".toList := Utf8.lenient_encode _
  have hchanged : (foretold f h "a.fish").verdict = .changed "x\n" := by
    rw [foretold_verdict hfirst rfl rfl, houtput]
    decide +kernel
  have hunchanged : (foretold f h "c.fish").verdict = .unchanged := by
    rw [foretold_verdict hsecond rfl rfl, houtput]
    decide +kernel
  have hproblems : foretoldProblems f h paths = [] := by
    simp only [foretoldProblems, paths, List.filter_cons, List.filter_nil, hchanged, hunchanged,
      Verdict.isProblem, Bool.false_eq_true, if_false]
  have hchanges : foretoldChanges f h paths = [Path.ofText "a.fish"] := by
    simp only [foretoldChanges, paths, List.filter_cons, List.filter_nil, hchanged, hunchanged,
      Verdict.isChange, Bool.false_eq_true, if_true, if_false]
  obtain ⟨hends, hall⟩ := check_predicts_formatting exec {} h {} args [] {} paths f hs hfind hfiles
    hdistinct hplain hcomputes
  obtain ⟨-, -, -, -, -, -, -, hexit, hagain⟩ := hall _ _ (hends true) (hends false)
  obtain ⟨hchecked, hformatted⟩ := hexit hproblems
  obtain ⟨-, -, hquiet⟩ := hagain hleaves hproblems
  obtain ⟨hend, hends'⟩ := hquiet true
  refine ⟨hs, hfind, hfiles, hdistinct, hplain, hcomputes, hleaves, hproblems, hchanges, ?_,
    hformatted, hends' _ hend⟩
  rw [hchecked, hchanges]
  rfl

end Command

end Formatting

end FishCheck
