import FishCheck.Command.Basic
import FishCheck.Discovery
import FishCheck.Text.Order
import FishCheck.Url.File

/-!
# The check command

Checking runs the checker on each file and reports what it complains about, file by
file, and a summary. A file that could not be checked does not hide the others: the
failures are listed once each, and the exit code puts failures before complaints.

Main results:

- Theorem `exitCode_report`: the exit code comes from failures, then from complaints.
-/

namespace FishCheck

namespace Check

/-- What checking one file gives: its diagnostics, or the wording of a failure. -/
abbrev Verdict := Except Text (List Diagnostic)

/-! ## One file -/

/-- The request to lint a file of the command line. -/
def requestFor (h : Host) (path : Path) (text : Text) : Except Text Lint.Request :=
  match Url.ofPath? ((Tree.pathOf h.cwd).join path) with
  | some url => .ok ⟨url, text, Lint.language, true⟩
  | none => .error ("Invalid path " ++ path.toText)

/-- Checks one file. -/
def checkFile (exec : Executor) (s : Settings) (h : Host) (path : Path) : Host × Verdict :=
  match (Command.readText h path).bind fun text => requestFor h path text with
  | .error message => (h, .error message)
  | .ok request =>
    let (after, found) :=
      Lint.run exec.outcome s (Command.directoryOf h) (Command.homeOf h) request h
    (after, (found.map fun ds => ds.getD []).mapError Failure.message)

/-- Checks files in order. -/
def checkAll (exec : Executor) (s : Settings) (h : Host) :
    List Path → Host × List (Path × Verdict)
  | [] => (h, [])
  | path :: paths =>
    let (h, verdict) := checkFile exec s h path
    let (h, rest) := checkAll exec s h paths
    (h, (path, verdict) :: rest)

/-! ## The report -/

/-- The diagnostics of a verdict; a failure has none. -/
def diagnosticsOf : Verdict → List Diagnostic
  | .ok ds => ds
  | .error _ => []

/-- The failure of a verdict. -/
def failureOf? : Verdict → Option Text
  | .ok _ => none
  | .error message => some message

/-- The number of all diagnostics. -/
def errorCount (results : List (Path × Verdict)) : Nat :=
  Text.total (results.map fun r => (diagnosticsOf r.2).length)

/-- The number of files with diagnostics. -/
def brokenCount (results : List (Path × Verdict)) : Nat :=
  results.countP fun r => !(diagnosticsOf r.2).isEmpty

/-- The failures, each once and in order. -/
def failures (results : List (Path × Verdict)) : List Text :=
  Text.sortUnique (results.filterMap fun r => failureOf? r.2)

/-- The line of a diagnostic. -/
def diagnosticLine (p : Palette) (path : Path) (d : Diagnostic) : Text :=
  Command.line (p.file path.toText ++ ":" ++
    p.place (Text.decimal (d.range.start.line + 1)) ++ ":" ++
    p.place (Text.decimal (d.range.start.character + 1)) ++ ": " ++
    d.message ++ " " ++ p.remark ("[" ++ Diagnostic.source ++ "]"))

/-- The lines of all diagnostics in order. -/
def diagnosticLines (p : Palette) (results : List (Path × Verdict)) : List Text :=
  results.flatMap fun r => (diagnosticsOf r.2).map (diagnosticLine p r.1)

/-- The line that sums the complaints up. -/
def issuesLine (p : Palette) (results : List (Path × Verdict)) : Text :=
  "\n" ++ Command.line (p.issues ++ " Found " ++ Text.decimal (errorCount results) ++
    " error(s) in " ++ Text.decimal (brokenCount results) ++ " file(s) (" ++
    Text.decimal results.length ++ " file(s) checked)")

/-- The line that says that nothing is wrong. -/
def successLine (p : Palette) (results : List (Path × Verdict)) : Text :=
  Command.line (p.success ++ " No syntax errors found in " ++
    Text.decimal results.length ++ " file(s)")

/-- The summary of the results, if there is anything to sum up. -/
def summary (p : Palette) (results : List (Path × Verdict)) : Text :=
  if 0 < errorCount results then issuesLine p results
  else if (failures results).isEmpty then successLine p results
  else []

/-- The exit code of the results: failures go before complaints. -/
def exitCode (results : List (Path × Verdict)) : Nat :=
  if !(failures results).isEmpty then Command.toolError
  else if 0 < errorCount results then Command.violations
  else Command.success

/-- The report on files that were checked. -/
def report (p : Palette) (quiet : Bool) (results : List (Path × Verdict)) : Report :=
  if results.isEmpty then
    { exitCode := Command.success
      stdout := if quiet then [] else Command.line "No fish files found" }
  else
    { exitCode := exitCode results
      stdout := (if quiet then [] else (diagnosticLines p results).flatten) ++ summary p results
      stderr := (failures results).flatMap (Command.errorLine p) }

/-- Checks the files that the arguments stand for. -/
def run (exec : Executor) (p : Palette) (h : Host) (o : Overrides) (args : List Text)
    (quiet : Bool) : Host × Report :=
  match Command.resolve h o with
  | .error e => (h, Command.failed p e.message)
  | .ok s =>
    match Discovery.find h.tree h.cwd args with
    | .error arg => (h, Command.failed p (Discovery.missing arg))
    | .ok paths =>
      let (h, results) := checkAll exec s h paths
      (h, report p quiet results)

/-! ## First facts -/

theorem failures_nil : failures [] = [] := by
  simp [failures, Text.sortUnique]

/-- Without files nothing is wrong. -/
theorem exitCode_nil : exitCode [] = Command.success := by
  unfold exitCode
  rw [failures_nil]
  rfl

/-- The exit code comes from failures, then from complaints. -/
theorem exitCode_report (p : Palette) (quiet : Bool) (results : List (Path × Verdict)) :
    (report p quiet results).exitCode = exitCode results := by
  unfold report
  cases results with
  | nil =>
    rw [exitCode_nil]
    rfl
  | cons r rs => rfl

end Check

end FishCheck
