import FishCheck.Command.Basic
import FishCheck.Discovery
import FishCheck.Format

/-!
# The format command

Formatting reads each file, runs the formatter on its text, and writes the file only if
the formatter succeeded and its output differs. A limited number of files is at work at a
time. Asked only to check, it writes nothing and says what it would write. Standard input
can be formatted too; whatever goes wrong then, the text that came in goes out again.
-/

namespace FishCheck

namespace Formatting

/-- What becomes of one file. -/
inductive Verdict
  | unchanged
  | changed (text : Text)
  | rejected
  | failed (message : Text)
deriving DecidableEq, Repr

/-! ## One text -/

/-- Runs the formatter on a text: its output, none when it rejects the text. -/
def formatText (exec : Executor) (s : Settings) (h : Host) (text : Text) :
    Host × Except Failure (Option Text) :=
  let d : Document := ⟨text⟩
  let (after, result) := exec h (Format.invocation s (Command.directoryOf h) d d.fullRange)
  (after, (Format.conclude d.fullRange (result.map Output.decode)).map fun e? =>
    e?.map (·.newText))

/-- What the formatter's answer means for a text. -/
def judge (text : Text) : Except Failure (Option Text) → Verdict
  | .ok (some formatted) => if formatted = text then .unchanged else .changed formatted
  | .ok none => .rejected
  | .error f => .failed f.message

/-! ## Files -/

/-- What the formatter makes of the text of a file. -/
def examine (exec : Executor) (s : Settings) (h : Host) : Except Text Text → Host × Verdict
  | .error message => (h, .failed message)
  | .ok text =>
    let (h, answer) := formatText exec s h text
    (h, judge text answer)

/-- What the formatter makes of the texts of files, in order. -/
def examineAll (exec : Executor) (s : Settings) (h : Host) :
    List (Path × Except Text Text) → Host × List (Path × Verdict)
  | [] => (h, [])
  | (path, text) :: rest =>
    let (h, verdict) := examine exec s h text
    let (h, more) := examineAll exec s h rest
    (h, (path, verdict) :: more)

/-- Writes the new text of a file, unless only a check is asked for. -/
def install (check : Bool) (h : Host) (path : Path) : Verdict → Host × Verdict
  | .changed text =>
    if check then (h, .changed text)
    else match h.tree.write h.cwd path (Utf8.encode text) with
      | .ok tree => ({ h with tree }, .changed text)
      | .error f =>
        (h, .failed ("Failed to write " ++ path.toText ++ ": " ++ f.message))
  | v => (h, v)

/-- Writes the new texts of files in order. -/
def installAll (check : Bool) (h : Host) : List (Path × Verdict) → Host × List (Path × Verdict)
  | [] => (h, [])
  | (path, verdict) :: rest =>
    let (h, verdict) := install check h path verdict
    let (h, more) := installAll check h rest
    (h, (path, verdict) :: more)

/-- Formats files that are at work together: all are read before any is written. -/
def formatTogether (exec : Executor) (s : Settings) (check : Bool) (h : Host)
    (paths : List Path) : Host × List (Path × Verdict) :=
  let texts := paths.map fun path => (path, Command.readText h path)
  let (h, verdicts) := examineAll exec s h texts
  installAll check h verdicts

/-- Formats files, so many of them together and at least one; the next ones wait until
these are done. -/
def formatAll (exec : Executor) (s : Settings) (check : Bool) (width : Nat) (h : Host) :
    List Path → Host × List (Path × Verdict)
  | [] => (h, [])
  | path :: paths =>
    let (h, results) := formatTogether exec s check h (path :: paths.take (width - 1))
    let (h, more) := formatAll exec s check width h (paths.drop (width - 1))
    (h, results ++ more)
termination_by paths => paths.length
decreasing_by simp only [List.length_drop, List.length_cons]; omega

/-! ## The report -/

/-- Whether a verdict is a change. -/
def Verdict.isChange : Verdict → Bool
  | .changed _ => true
  | _ => false

/-- Whether a verdict is a problem. -/
def Verdict.isProblem : Verdict → Bool
  | .rejected | .failed _ => true
  | _ => false

/-- The line of a file that changes. -/
def changeLine (check : Bool) (r : Path × Verdict) : Option Text :=
  if r.2.isChange then
    some (Command.line ((if check then "Would reformat: ".toList else "Formatted: ".toList) ++
      r.1.toText))
  else none

/-- The line of a file with a problem. -/
def problemLine (p : Palette) (r : Path × Verdict) : Option Text :=
  match r.2 with
  | .rejected => some (Command.line (p.warning ++ ": formatter rejected " ++ r.1.toText ++
      " (does it have syntax errors?)"))
  | .failed message => some (Command.errorLine p message)
  | _ => none

/-- The number of files that change. -/
def changeCount (results : List (Path × Verdict)) : Nat := results.countP fun r => r.2.isChange

/-- The line that sums the changes up. -/
def summary (check : Bool) (results : List (Path × Verdict)) : Text :=
  let changed := changeCount results
  Command.line (Text.decimal changed ++ " file(s) " ++
    (if check then "would be reformatted".toList else "reformatted".toList) ++ ", " ++
    Text.decimal (results.length - changed) ++ " file(s) left unchanged")

/-- The exit code: problems go first; changes count only when a check is asked for. -/
def exitCode (check : Bool) (results : List (Path × Verdict)) : Nat :=
  if results.any fun r => r.2.isProblem then Command.toolError
  else if check && 0 < changeCount results then Command.violations
  else Command.success

/-- The report on files that were formatted. -/
def report (p : Palette) (check : Bool) (results : List (Path × Verdict)) : Report where
  exitCode := exitCode check results
  stdout := (results.filterMap (changeLine check)).flatten ++ summary check results
  stderr := (results.filterMap (problemLine p)).flatten

/-- Formats the files that the arguments stand for. -/
def runFiles (exec : Executor) (p : Palette) (s : Settings) (h : Host) (args : List Text)
    (check : Bool) : Host × Report :=
  match Discovery.find h.tree h.cwd args with
  | .error arg => (h, Command.failed p (Discovery.missing arg))
  | .ok paths =>
    let (h, results) := formatAll exec s check h.processors h paths
    (h, report p check results)

/-! ## Standard input -/

/-- Formats standard input; a text that cannot be formatted is written as it came. -/
def runInput (exec : Executor) (p : Palette) (s : Settings) (h : Host) (stdin : Bytes) :
    Host × Report :=
  match Utf8.strict? stdin with
  | none => (h, Command.failed p ("Failed to read stdin: " ++ notText))
  | some text =>
    let (h, answer) := formatText exec s h text
    match answer with
    | .ok (some formatted) => (h, { exitCode := Command.success, stdout := formatted })
    | .ok none =>
      (h, { exitCode := Command.toolError, stdout := text
            stderr := Command.line (p.warning ++ ": formatter rejected the input") })
    | .error f =>
      (h, { exitCode := Command.toolError, stdout := text
            stderr := Command.errorLine p f.message })

/-- Formats files or standard input. -/
def run (exec : Executor) (p : Palette) (h : Host) (o : Overrides) (args : List Text)
    (check fromInput : Bool) (stdin : Bytes) : Host × Report :=
  match Command.resolve h o with
  | .error e => (h, Command.failed p e.message)
  | .ok s => if fromInput then runInput exec p s h stdin else runFiles exec p s h args check

end Formatting

end FishCheck
