import FishCheck.Settings.Basic
import FishCheck.Text.Blank
import FishCheck.Text.Quoted

/-!
# Versions of the checker

The checker answers `--version` with a line that holds a name, `, version ` and a
version, possibly among other output. The first such line counts: of the standard
output, or else of the error output, whatever the exit code.
-/

namespace FishCheck

/-- The name and version that a checker gives itself. -/
structure Version where
  name : Text
  number : Text
deriving DecidableEq, Repr

namespace Version

/-- What stands between name and version, without the comma that ends the name. -/
def separator : Text := " version "

/-- A version as the checker prints it. -/
def toText (v : Version) : Text := v.name ++ ", version " ++ v.number

/-- Reads a line that starts with a name, `, version ` and a version; both are free of
blanks and not empty. -/
def ofLine? (line : Text) : Option Version := do
  let word := line.takeWhile (!Text.isBlank ·)
  let rest ← separator.isPrefixOf? (line.dropWhile (!Text.isBlank ·))
  let number := rest.takeWhile (!Text.isBlank ·)
  if word.getLast? = some ',' ∧ 1 < word.length ∧ number ≠ [] then some ⟨word.dropLast, number⟩
  else none

/-- The version on the first line of a text that has one. -/
def read? (t : Text) : Option Version := (Text.pieces t).findSome? ofLine?

/-! ## Probing -/

/-- Why no version could be found. -/
inductive ProbeFailure
  | run (failure : Failure)
  | unrecognized (program output : Text)
deriving DecidableEq, Repr

/-- The wording of a failed probe. -/
def ProbeFailure.message : ProbeFailure → Text
  | .run failure => failure.message
  | .unrecognized program output =>
    "could not read a version from \x60" ++ program ++ " --version\x60 output: " ++
      Text.quote output

/-- The checker run that asks for the version. -/
def invocation (s : Settings) (cwd : Option Path) : Invocation where
  program := s.checker
  args := ["--version"]
  stdin := none
  cwd := cwd
  timeout := s.limit

/-- The version that a probe found. -/
def conclude (s : Settings) : Outcome → Except ProbeFailure Version
  | .error failure => .error (.run failure)
  | .ok c =>
    match read? c.stdout <|> read? c.stderr with
    | some v => .ok v
    | none => .error (.unrecognized s.checker (Text.trim (c.stdout ++ c.stderr)))

end Version

end FishCheck
