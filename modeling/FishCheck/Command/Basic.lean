import FishCheck.Command.Style
import FishCheck.Host.Basic
import FishCheck.Settings.Source

/-!
# Commands

A command of the command line works on a host: it reads the settings, runs tools, may
change files, and ends in a report. How tools are run is a parameter, so that what a
command does can be said for any tools.
-/

namespace FishCheck

/-- What a command prints and returns. -/
structure Report where
  exitCode : Nat
  stdout : Text := []
  stderr : Text := []
deriving DecidableEq, Repr

/-- A way to run tools: the host afterwards, and the output or the failure. -/
abbrev Executor := Host → Invocation → Host × Except Failure Output

/-- Runs a tool and decodes what it wrote. -/
def Executor.outcome (exec : Executor) (h : Host) (i : Invocation) : Host × Outcome :=
  let (after, result) := exec h i
  (after, result.map Output.decode)

/-- Settings that the command line gives for all commands. -/
structure Overrides where
  settingsFile : Option Text := none
  checker : Option Text := none
  formatter : Option Text := none
  timeout : Option Nat := none
deriving DecidableEq, Repr

namespace Command

/-! ## Exit codes -/

/-- Nothing is wrong. -/
def success : Nat := 0

/-- There are problems in the files. -/
def violations : Nat := 1

/-- The work could not be done. -/
def toolError : Nat := 2

/-! ## Settings -/

/-- The layer that the command line puts on top. -/
def Overrides.layer (o : Overrides) : Layer where
  checker := o.checker
  formatter := o.formatter
  timeout := o.timeout

/-- The settings of a command: those of the named or customary file, with what the command
line sets on top. -/
def resolve (h : Host) (o : Overrides) : Except SettingsError Settings :=
  (Settings.resolve h.view (o.settingsFile.map Path.ofText) (Tree.pathOf h.cwd)).map fun s =>
    s.apply (Overrides.layer o)

/-! ## Printing -/

/-- A line of output. -/
def line (t : Text) : Text := t ++ ['\n']

/-- The line of an error. -/
def errorLine (p : Palette) (message : Text) : Text := line (p.error ++ ": " ++ message)

/-- The report of a command that could not do its work. -/
def failed (p : Palette) (message : Text) : Report :=
  { exitCode := toolError, stderr := errorLine p message }

/-! ## Files -/

/-- The text of a file, or the wording of why there is none. -/
def readText (h : Host) (path : Path) : Except Text Text :=
  (h.view.readText path).mapError fun cause =>
    "Failed to read " ++ path.toText ++ ": " ++ cause

/-- The home directory of the user: the one that the variables name, and without one there
that of the account. -/
def homeOf (h : Host) : Option Path :=
  (((h.lookup "HOME").filter fun t => !t.isEmpty).map Path.ofText).or h.accountHome

/-- The working directory of the command, for its tools. -/
def directoryOf (h : Host) : Option Path := some (Tree.pathOf h.cwd)

end Command

end FishCheck
