import FishCheck.Settings.File

/-!
# Finding the settings file

The settings file is the one that is named explicitly, or else the file of the
customary name in the working directory, if there is one. A named file has to exist
and be readable; without any file the defaults hold.

Main results:

- Theorem `discover_none`: a directory without the file gives no settings.
-/

namespace FishCheck

/-- What settings need to know about files. -/
structure FileView where
  /-- Whether something is at the path, links followed. -/
  present : Path → Bool
  /-- Whether a regular file is at the path, links followed. -/
  isFile : Path → Bool
  /-- The bytes of the file at the path, or the wording of why there are none. -/
  read : Path → Except Text Bytes

/-- The wording for a file or stream that holds no text. -/
def notText : Text := "stream did not contain valid UTF-8"

/-- The text of the file at a path. -/
def FileView.readText (files : FileView) (path : Path) : Except Text Text :=
  (files.read path).bind fun bytes =>
    match Utf8.strict? bytes with
    | some t => .ok t
    | none => .error notText

/-- Why no settings could be had. -/
inductive SettingsError
  | notFound (path : Path)
  | unreadable (path : Path) (cause : Text)
  | invalid (path : Path) (source : Text) (problem : SettingsFile.Problem)
deriving DecidableEq, Repr

/-- The wording of a settings error. -/
def SettingsError.message : SettingsError → Text
  | .notFound path => "configuration file not found: " ++ path.toText
  | .unreadable path cause => "failed to read " ++ path.toText ++ ": " ++ cause
  | .invalid path source problem =>
    "failed to parse " ++ path.toText ++ ": " ++ problem.report source

namespace Settings

/-- The customary name of the settings file. -/
def fileName : Path := ".fishlint.toml"

/-- The settings that the text of a file gives, on top of the defaults. -/
def ofText (source : Text) (path : Path) : Except SettingsError Settings :=
  match SettingsFile.read source with
  | .ok layer => .ok (({} : Settings).apply layer)
  | .error problem => .error (.invalid path source problem)

/-- The settings of a file that has to exist. -/
def load (files : FileView) (path : Path) : Except SettingsError Settings :=
  if files.present path then
    match files.readText path with
    | .ok source => ofText source path
    | .error cause => .error (.unreadable path cause)
  else .error (.notFound path)

/-- The settings of the customary file in a directory, if it is there. -/
def discover (files : FileView) (dir : Path) : Except SettingsError (Option Settings) :=
  let candidate := dir.join fileName
  if files.isFile candidate then (load files candidate).map some else .ok none

/-- The settings of the named file, or of the one in the directory, or the defaults. -/
def resolve (files : FileView) (explicit : Option Path) (dir : Path) :
    Except SettingsError Settings :=
  match explicit with
  | some path => load files path
  | none => (discover files dir).map fun found => found.getD {}

/-- A directory without the file gives no settings. -/
theorem discover_none {files : FileView} {dir : Path}
    (h : files.isFile (dir.join fileName) = false) :
    discover files dir = .ok none := by
  simp [discover, h]

end Settings

end FishCheck
