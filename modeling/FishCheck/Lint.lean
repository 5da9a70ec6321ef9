import FishCheck.Diagnostic
import FishCheck.Settings.Basic

/-!
# Linting

Linting a document runs the checker on the file that the document's URL names and
turns the complaints about that file into diagnostics. Only a saved fish document
with a local path can be linted, since the checker reads the file and not the
editor's copy.

Main results:

- Theorem `run_of_target`: a request with a path to check ends as its checker run does.
-/

namespace FishCheck

namespace Lint

/-- The language name of fish documents. -/
def language : Text := "fish"

/-- The extension of fish files, in bytes. -/
def extension : Bytes := Utf8.encode "fish"

/-- A document to lint. -/
structure Request where
  url : Url
  /-- The text that sizes the diagnostics. -/
  text : Text
  /-- The language that the editor names; empty when it names none. -/
  language : Text
  /-- Whether the editor holds no unsaved changes. -/
  saved : Bool
deriving DecidableEq, Repr

/-- Whether a document is fish: by its language, or by the extension of its URL's path
when the editor names no language. -/
def isFishDocument (url : Url) (lang : Text) : Bool :=
  if lang.isEmpty then (Path.ofText url.path).hasExtension extension
  else lang == language

/-- Whether the request names a saved fish file. -/
def Request.isEligible (r : Request) : Bool :=
  r.saved && Url.isFileScheme r.url.scheme && isFishDocument r.url r.language

/-- The path to check, if the request can be linted. -/
def Request.target? (r : Request) : Option Path :=
  if r.isEligible then r.url.toPath? else none

/-- The checker run for a path. -/
def invocation (s : Settings) (cwd : Option Path) (path : Path) : Invocation where
  program := s.checker
  args := ["-n", path.toText]
  stdin := none
  cwd := cwd
  timeout := s.limit

/-- The diagnostics of a document from the checker's error output. -/
def diagnostics (home : Option Path) (text : Text) (path : Path) (stderr : Text) :
    List Diagnostic :=
  (Complaint.readFor stderr path home).map fun c => Diagnostic.ofComplaint c ⟨text⟩

/-- What a checker run says about a document; any exit code is an answer. -/
def conclude (home : Option Path) (text : Text) (path : Path) (outcome : Outcome) :
    Except Failure (List Diagnostic) :=
  outcome.map fun c => diagnostics home text path c.stderr

/-- Lints a document, given how tools are run and what they run in: a request with a path to
check makes one checker run, and any other is left alone. -/
def run {σ : Type} (runTool : σ → Invocation → σ × Outcome) (s : Settings)
    (cwd home : Option Path) (r : Request) (world : σ) :
    σ × Except Failure (Option (List Diagnostic)) :=
  match r.target? with
  | none => (world, .ok none)
  | some path =>
    let (after, outcome) := runTool world (invocation s cwd path)
    (after, (conclude home r.text path outcome).map some)

/-- A request with a path to check ends as its checker run does. -/
theorem run_of_target {σ : Type} {runTool : σ → Invocation → σ × Outcome} {s : Settings}
    {cwd home : Option Path} {r : Request} {world : σ} {path : Path}
    (h : r.target? = some path) :
    run runTool s cwd home r world =
      ((runTool world (invocation s cwd path)).1,
        (conclude home r.text path (runTool world (invocation s cwd path)).2).map some) := by
  rw [run, h]

end Lint

end FishCheck
