import FishCheck.Session.Basic
import FishCheck.Session.Params
import FishCheck.Settings.Editor
import FishCheck.Settings.Source

/-!
# Setting a session up

A session is set up when the editor starts it. The settings come from three layers:
the defaults, the settings file that the editor names, else the one that the command
line names, else the one in the root directory, and what the editor sends. Layers that
are broken count as absent. The checker is then asked for its version, and only when
it answers do settings, root and version take effect, all three at once.

Main results:

- Theorem `conclude_error`: a failed set-up leaves the session as it was.
- Theorem `conclude_ok`: a successful one sets all three.
-/

namespace FishCheck

namespace Activation

/-- The settings and root that take effect if the checker answers. -/
structure Candidate where
  settings : Settings
  root : Option Path
deriving DecidableEq, Repr

/-- What the editor sent as options; nothing when it is invalid. -/
def optionsOf (p : Params.SetUp) : EditorOptions :=
  match p.options with
  | none => {}
  | some j => (EditorOptions.read j).toOption.getD {}

/-- The settings of the file layer on top of the defaults; a file that cannot be used
counts as absent. -/
def fileSettings (files : FileView) (explicit : Option Text) (root : Option Path) : Settings :=
  match explicit with
  | some path => (Settings.load files (Path.ofText path)).toOption.getD {}
  | none =>
    match root with
    | none => {}
    | some dir => ((Settings.discover files dir).toOption.join).getD {}

/-- The candidate that an editor's parameters and the command line's settings file
describe. -/
def candidate (files : FileView) (commandLine : Option Text) (p : Params.SetUp) : Candidate :=
  let options := optionsOf p
  let root := p.root
  let settings := fileSettings files (options.configPath <|> commandLine) root
  ⟨settings.apply options.layer, root⟩

/-- The checker run that decides on a candidate. -/
def probe (c : Candidate) : Invocation := Version.invocation c.settings c.root

/-- The session after the probe of a candidate. -/
def conclude (s : Session) (c : Candidate) (outcome : Outcome) :
    Session × Except Version.ProbeFailure Version :=
  match Version.conclude c.settings outcome with
  | .ok v => ({ s with settings := c.settings, root := c.root, version := some v }, .ok v)
  | .error f => (s, .error f)

/-- A failed set-up leaves the session as it was. -/
theorem conclude_error {s : Session} {c : Candidate} {outcome : Outcome} {f : Version.ProbeFailure}
    (h : Version.conclude c.settings outcome = .error f) : (conclude s c outcome).1 = s := by
  simp [conclude, h]

/-- A successful set-up sets settings, root and version together. -/
theorem conclude_ok {s : Session} {c : Candidate} {outcome : Outcome} {v : Version}
    (h : Version.conclude c.settings outcome = .ok v) :
    (conclude s c outcome).1 =
      { s with settings := c.settings, root := c.root, version := some v } := by
  simp [conclude, h]

end Activation

end FishCheck
