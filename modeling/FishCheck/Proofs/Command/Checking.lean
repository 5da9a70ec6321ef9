import FishCheck.Command.Check
import FishCheck.Proofs.Path.Names

/-!
# What a check finds

A check goes through its files one by one.  It reads a file, has the checker run on it and
keeps what this run says: diagnostics, or the wording of a failure.  Each file is checked on
the host that the checks before it have left.  This module says so by a relation for one file,
with a case for every way in which its check can end, and a relation for all of them, and shows
that the check follows both.

Main results:

- Theorem `exists_request`: every file has a path that the checker can be given.
- Theorem `finds_checkFile`: what the check of one file finds.
- Theorem `checks_checkAll`: what the check of all files finds.
-/

namespace FishCheck

theorem Tree.isAbsolute_pathOf (l : Location) : (pathOf l).isAbsolute = true := by
  cases l <;> simp [pathOf, Path.isAbsolute]

/-- The URL of a path has a local path. -/
theorem Url.exists_toPath_of_ofPath {p : Path} {u : Url} (h : ofPath? p = some u) :
    ∃ file, u.toPath? = some file := by
  have habsolute := (toText_of_ofPath h).1
  rw [ofPath_of_isAbsolute habsolute] at h
  obtain rfl := Option.some.inj h
  have hhead : (writeComponents p.behindRoot).head? = some '/' := by
    cases hcomponents : p.behindRoot <;> simp [writeComponents]
  exact ⟨_, by rw [toPath?, if_pos ⟨hhead, rfl⟩]⟩

namespace Check

/-! ## One file -/

section OneFile

variable (exec : Executor) (s : Settings) (h : Host) (path : Path)

/-- The path under which a file of the command line is given to the checker. -/
def target? : Option Path := (Url.ofPath? ((Tree.pathOf h.cwd).join path)).bind Url.toPath?

/-- What the check of a file finds, with the host that it leaves: a file fails that cannot be
read or whose checker run fails, and any other has the diagnostics of this run. -/
inductive Finds : Host → Verdict → Prop
  | unreadable {message : Text} (hread : Command.readText h path = .error message) :
      Finds h (.error message)
  | failed {text : Text} {file : Path} {after : Host} {f : Failure}
      (hread : Command.readText h path = .ok text) (hfile : target? h path = some file)
      (hrun : exec.outcome h (Lint.invocation s (Command.directoryOf h) file) =
        (after, .error f)) :
      Finds after (.error f.message)
  | checked {text : Text} {file : Path} {after : Host} {c : Completion}
      (hread : Command.readText h path = .ok text) (hfile : target? h path = some file)
      (hrun : exec.outcome h (Lint.invocation s (Command.directoryOf h) file) = (after, .ok c)) :
      Finds after (.ok (Lint.diagnostics (Command.homeOf h) text file c.stderr))

/-- Every file has a path that the checker can be given, and so there is a request to check it. -/
theorem exists_request (text : Text) :
    ∃ request file, requestFor h path text = .ok request ∧ request.text = text ∧
      request.target? = some file ∧ target? h path = some file := by
  have habsolute := Path.isAbsolute_join (Tree.isAbsolute_pathOf h.cwd) path
  have hurl := Url.ofPath_of_isAbsolute habsolute
  obtain ⟨file, hfile⟩ := Url.exists_toPath_of_ofPath hurl
  refine ⟨_, file, by rw [requestFor, hurl], rfl, ?_, ?_⟩
  · rw [Lint.Request.target?, if_pos (by rfl)]
    exact hfile
  · rw [target?, hurl]
    exact hfile

variable {h path}

/-- A file that cannot be read fails without a run. -/
theorem checkFile_of_unreadable {message : Text}
    (hread : Command.readText h path = .error message) :
    checkFile exec s h path = (h, .error message) := by
  rw [checkFile, hread]
  rfl

/-- A file with a text is given to the checker, and what the run says is the verdict. -/
theorem checkFile_of_text {text : Text} {file : Path}
    (hread : Command.readText h path = .ok text) (hfile : target? h path = some file) :
    checkFile exec s h path =
      ((exec.outcome h (Lint.invocation s (Command.directoryOf h) file)).1,
        (Lint.conclude (Command.homeOf h) text file
          (exec.outcome h (Lint.invocation s (Command.directoryOf h) file)).2).mapError
            Failure.message) := by
  obtain ⟨request, file', hrequest, rfl, htarget, hfile'⟩ := exists_request h path text
  obtain rfl := Option.some.inj (hfile.symm.trans hfile')
  rw [checkFile, hread, Except.bind, hrequest]
  simp only [Lint.run_of_target htarget]
  cases Lint.conclude (Command.homeOf h) request.text file
    (exec.outcome h (Lint.invocation s (Command.directoryOf h) file)).2 <;> rfl

/-- The check of a file finds what there is to find. -/
theorem finds_checkFile (h : Host) (path : Path) :
    Finds exec s h path (checkFile exec s h path).1 (checkFile exec s h path).2 := by
  cases hread : Command.readText h path with
  | error message =>
    rw [checkFile_of_unreadable exec s hread]
    exact .unreadable hread
  | ok text =>
    obtain ⟨-, file, -, -, -, hfile⟩ := exists_request h path text
    rw [checkFile_of_text exec s hread hfile]
    cases houtcome : (exec.outcome h (Lint.invocation s (Command.directoryOf h) file)).2 with
    | error f => exact .failed hread hfile (Prod.ext rfl houtcome)
    | ok c => exact .checked hread hfile (Prod.ext rfl houtcome)

end OneFile

/-! ## All files -/

section AllFiles

variable (exec : Executor) (s : Settings)

/-- What the check of files finds, with the host that it leaves: they are checked one after the
other, each on the host that the one before it left. -/
inductive Checks : Host → List Path → Host → List (Path × Verdict) → Prop
  | done (h : Host) : Checks h [] h []
  | next {h mid after : Host} {path : Path} {verdict : Verdict} {paths : List Path}
      {results : List (Path × Verdict)} (hfirst : Finds exec s h path mid verdict)
      (hrest : Checks mid paths after results) :
      Checks h (path :: paths) after ((path, verdict) :: results)

/-- The check of files finds what there is to find in each of them. -/
theorem checks_checkAll (h : Host) (paths : List Path) :
    Checks exec s h paths (checkAll exec s h paths).1 (checkAll exec s h paths).2 := by
  induction paths generalizing h with
  | nil => exact .done h
  | cons path paths ih => exact .next (finds_checkFile exec s h path) (ih _)

/-- Every file has its result, in the order of the files. -/
theorem Checks.map_fst {exec : Executor} {s : Settings} {h after : Host} {paths : List Path}
    {results : List (Path × Verdict)} (hchecks : Checks exec s h paths after results) :
    results.map Prod.fst = paths := by
  induction hchecks with
  | done h => rfl
  | next hfirst hrest ih => rw [List.map_cons, ih]

end AllFiles

end Check

end FishCheck
