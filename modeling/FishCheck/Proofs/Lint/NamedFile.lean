import FishCheck.Lint
import FishCheck.Proofs.Text.Decoding
import FishCheck.Proofs.Url.LocalPaths
import FishCheck.Session.Basic

/-!
# The file that is checked

Linting names the file to the checker by an argument, which is text, while the path in a URL
is bytes behind escapes.  This module follows the bytes into the argument.  A path that
decodes to text comes through unchanged, so such documents have runs of their own; any other
loses its ill-formed stretches on the way, and the checker is run on a file of another name.

Main results:

- Theorem `run_keeping`: the invocations of linting can be kept without changing it.
- Theorem `invocations_eq`: linting makes one run for a request with a path, and no other.
- Theorem `encode_argument_eq_iff`: which paths the argument keeps.
- Theorem `run_checks_named_file`: what is run for a request, and when it is its own file.
- Theorem `run_checks_other_file`: two documents whose checks are one.
- Theorem `startCheck_eq_invocations`: a session makes the runs that linting makes.
-/

namespace FishCheck

namespace Lint

/-! ## The runs of a request -/

/-- A way to run tools that also keeps every invocation, in order. -/
def keeping {σ : Type} (runTool : σ → Invocation → σ × Outcome)
    (world : σ × List Invocation) (i : Invocation) : (σ × List Invocation) × Outcome :=
  let (after, outcome) := runTool world.1 i
  ((after, world.2 ++ [i]), outcome)

section Runs

variable {σ : Type} (runTool : σ → Invocation → σ × Outcome) (s : Settings)
  (cwd home : Option Path) (r : Request) (world : σ)

/-- The invocations that linting makes. -/
def invocations : List Invocation := (run (keeping runTool) s cwd home r (world, [])).1.2

/-- Keeping the invocations changes nothing else. -/
theorem run_keeping :
    run (keeping runTool) s cwd home r (world, []) =
      (((run runTool s cwd home r world).1, invocations runTool s cwd home r world),
        (run runTool s cwd home r world).2) := by
  unfold invocations run
  cases r.target? <;> rfl

/-- Linting makes one run for a request with a path, and none for any other. -/
theorem invocations_eq :
    invocations runTool s cwd home r world = (r.target?.map (invocation s cwd)).toList := by
  unfold invocations run
  cases r.target? <;> rfl

end Runs

/-- A request has a path to check when it is eligible and its URL has a local path. -/
theorem target_eq_some_iff {r : Request} {path : Path} :
    r.target? = some path ↔ r.isEligible = true ∧ r.url.toPath? = some path := by
  rw [Request.target?]
  split <;> simp_all

/-! ## From the path of a URL to an argument -/

/-- The argument that names the file of a URL to the checker. -/
def argumentOf (u : Url) : Text := Utf8.lenient (Url.closeDrive (Percent.decode u.path))

/-- A URL whose path an argument keeps: it decodes to text, and not to the root of a drive,
which would be given a slash. -/
structure Spellable (u : Url) : Prop where
  text : ∃ t, Percent.decode u.path = Utf8.encode t
  plain : Url.endsInDrive (Percent.decode u.path) = false

/-- The argument holds the bytes of the path exactly when it can. -/
theorem encode_argument_eq_iff (u : Url) :
    Utf8.encode (argumentOf u) = Percent.decode u.path ↔ Spellable u := by
  by_cases hdrive : Url.endsInDrive (Percent.decode u.path) = true
  · -- the slash that is added is read back, so the argument is longer than the path
    refine ⟨fun h => ?_, fun h => absurd hdrive (by rw [h.plain]; decide)⟩
    have hslash : Url.closeDrive (Percent.decode u.path) = Utf8.encode (argumentOf u ++ ['/']) := by
      rw [Url.closeDrive, if_pos hdrive, Utf8.encode_append, h]
      rfl
    have hargument : argumentOf u = argumentOf u ++ ['/'] := by
      conv_lhs => rw [argumentOf, hslash, Utf8.lenient_encode]
    exact absurd (List.self_eq_append_right.1 hargument) (List.cons_ne_nil _ _)
  · have hplain : Url.endsInDrive (Percent.decode u.path) = false := Bool.eq_false_iff.2 hdrive
    rw [argumentOf, Url.closeDrive, if_neg hdrive, Utf8.encode_lenient_eq_iff]
    exact ⟨fun h => ⟨h, hplain⟩, Spellable.text⟩

/-- Paths that arguments keep have arguments of their own. -/
theorem Spellable.decode_eq_of_argument_eq {u v : Url} (hu : Spellable u) (hv : Spellable v)
    (h : argumentOf u = argumentOf v) : Percent.decode u.path = Percent.decode v.path :=
  calc Percent.decode u.path
      = Utf8.encode (argumentOf u) := ((encode_argument_eq_iff u).2 hu).symm
    _ = Utf8.encode (argumentOf v) := by rw [h]
    _ = Percent.decode v.path := (encode_argument_eq_iff v).2 hv

/-- The checker run on the file of a URL. -/
def checkOf (s : Settings) (cwd : Option Path) (u : Url) : Invocation where
  program := s.checker
  args := ["-n", argumentOf u]
  stdin := none
  cwd := cwd
  timeout := s.limit

/-- The run on the local path of a URL is the run on its file. -/
theorem invocation_of_toPath {u : Url} {path : Path} (h : u.toPath? = some path) (s : Settings)
    (cwd : Option Path) : invocation s cwd path = checkOf s cwd u := by
  obtain ⟨-, -, hbytes⟩ := Url.toPath_eq_some_iff.1 h
  rw [invocation, checkOf, Path.toText, hbytes, argumentOf]

/-! ## What is checked -/

section Runs

variable {σ : Type} {runTool : σ → Invocation → σ × Outcome} {s : Settings}
  {cwd home : Option Path} {r : Request} {world : σ}

/-- Only the file of the request is checked. -/
theorem eq_checkOf_of_mem_invocations {i : Invocation}
    (h : i ∈ invocations runTool s cwd home r world) : i = checkOf s cwd r.url := by
  rw [invocations_eq, Option.mem_toList] at h
  obtain ⟨path, htarget, rfl⟩ := Option.map_eq_some_iff.1 h
  exact invocation_of_toPath (target_eq_some_iff.1 htarget).2 s cwd

/-- A request that is not eligible or has no local path has no path to check. -/
theorem target_eq_none_of_left (h : r.isEligible = false ∨ r.url.toPath? = none) :
    r.target? = none := by
  rw [Option.eq_none_iff_forall_ne_some]
  intro path hpath
  obtain ⟨heligible, hlocal⟩ := target_eq_some_iff.1 hpath
  rcases h with hleft | hleft
  · rw [heligible] at hleft
    cases hleft
  · rw [hlocal] at hleft
    cases hleft

end Runs

/-- Linting checks the file of an eligible request with a local path in one run and gives what
that run says; any other request is left alone without a run.  The argument of the run holds
exactly the bytes that the path of the URL decodes to if these are text, and then no request for
another such path leads to the same command line. -/
theorem run_checks_named_file {σ : Type} (runTool : σ → Invocation → σ × Outcome) (s : Settings)
    (cwd home : Option Path) (r : Request) (world : σ) :
    (∀ path, r.isEligible = true → r.url.toPath? = some path →
      invocations runTool s cwd home r world = [checkOf s cwd r.url] ∧
      run runTool s cwd home r world =
        ((runTool world (checkOf s cwd r.url)).1,
          (conclude home r.text path (runTool world (checkOf s cwd r.url)).2).map some)) ∧
    (Utf8.encode (argumentOf r.url) = Percent.decode r.url.path ↔ Spellable r.url) ∧
    (∀ (other : Request) (world' : σ), Spellable r.url → Spellable other.url →
      Percent.decode r.url.path ≠ Percent.decode other.url.path →
      ∀ i ∈ invocations runTool s cwd home r world,
        ∀ j ∈ invocations runTool s cwd home other world',
          (i.program, i.args) ≠ (j.program, j.args)) ∧
    (r.isEligible = false ∨ r.url.toPath? = none →
      invocations runTool s cwd home r world = [] ∧
      run runTool s cwd home r world = (world, .ok none)) := by
  refine ⟨?_, encode_argument_eq_iff r.url, ?_, ?_⟩
  · intro path heligible hpath
    have htarget : r.target? = some path := target_eq_some_iff.2 ⟨heligible, hpath⟩
    have hcheck := invocation_of_toPath hpath s cwd
    constructor
    · rw [invocations_eq, htarget, ← hcheck]
      rfl
    · rw [run, htarget, ← hcheck]
  · intro other world' hr hother hpaths i hi j hj hsame
    have hargs : (checkOf s cwd r.url).args = (checkOf s cwd other.url).args := by
      rw [← eq_checkOf_of_mem_invocations hi, ← eq_checkOf_of_mem_invocations hj]
      exact (Prod.mk.inj hsame).2
    have harguments : argumentOf r.url = argumentOf other.url :=
      (List.cons.inj (List.cons.inj hargs).2).1
    exact hpaths (hr.decode_eq_of_argument_eq hother harguments)
  · intro hleft
    have htarget := target_eq_none_of_left hleft
    constructor
    · rw [invocations_eq, htarget]
      rfl
    · rw [run, htarget]

/-- A file whose name holds an escaped percent sign and a letter beyond ASCII, the file whose
URL has one escape less, and a document that is not saved; the tool counts its runs. -/
theorem run_checks_named_file_escaped :
    let runTool : Nat → Invocation → Nat × Outcome := fun n _ =>
      (n + 1, .ok ⟨127, [], "/tmp/a%20é.fish (line 1): oops"⟩)
    let u : Url := ⟨"file", some ⟨[], [], []⟩, "/tmp/a%2520%C3%A9.fish", none, none⟩
    let v : Url := ⟨"file", some ⟨[], [], []⟩, "/tmp/a%20%C3%A9.fish", none, none⟩
    let r : Request := ⟨u, "x", "fish", true⟩
    let other : Request := ⟨v, "x", [], true⟩
    let unsaved : Request := ⟨u, "x", "fish", false⟩
    let d : Diagnostic := ⟨⟨⟨0, 0⟩, ⟨0, 1⟩⟩, "oops"⟩
    Url.parse? "file:///tmp/a%2520%C3%A9.fish" = some u ∧
      r.isEligible = true ∧ u.toPath? = some "/tmp/a%20é.fish" ∧
      checkOf {} none u = ⟨"fish", ["-n", "/tmp/a%20é.fish"], none, none, some 30000⟩ ∧
      invocations runTool {} none none r 0 = [checkOf {} none u] ∧
      run runTool {} none none r 0 = (1, .ok (some [d])) ∧
      Spellable u ∧ Utf8.encode (argumentOf u) = Percent.decode u.path ∧
      Spellable v ∧ Percent.decode u.path ≠ Percent.decode v.path ∧
      (∀ i ∈ invocations runTool {} none none r 0, ∀ j ∈ invocations runTool {} none none other 1,
        (i.program, i.args) ≠ (j.program, j.args)) ∧
      unsaved.isEligible = false ∧ invocations runTool {} none none unsaved 0 = [] ∧
      run runTool {} none none unsaved 0 = (0, .ok none) := by
  intro runTool u v r other unsaved d
  obtain ⟨hchecked, hexact, hapart, -⟩ := run_checks_named_file runTool {} none none r 0
  have heligible : r.isEligible = true := by decide +kernel
  have hpath : u.toPath? = some "/tmp/a%20é.fish" := by decide +kernel
  have hu : Spellable u := ⟨⟨"/tmp/a%20é.fish", by decide +kernel⟩, by decide +kernel⟩
  have hv : Spellable v := ⟨⟨"/tmp/a é.fish", by decide +kernel⟩, by decide +kernel⟩
  have hpaths : Percent.decode u.path ≠ Percent.decode v.path := by decide +kernel
  have hunsaved : unsaved.isEligible = false := by decide +kernel
  obtain ⟨hmade, hrun⟩ := hchecked _ heligible hpath
  obtain ⟨hnone, hleft⟩ :=
    (run_checks_named_file runTool {} none none unsaved 0).2.2.2 (Or.inl hunsaved)
  have hsays : conclude none r.text "/tmp/a%20é.fish"
      (.ok ⟨127, [], "/tmp/a%20é.fish (line 1): oops"⟩) = .ok [d] := by decide +kernel
  refine ⟨by decide +kernel, heligible, hpath, by decide +kernel, hmade, ?_, hu, hexact.2 hu, hv,
    hpaths, hapart other 1 hu hv hpaths, hunsaved, hnone, hleft⟩
  rw [hrun]
  exact congrArg (fun said => (1, Except.map some said)) hsays

/-- A path that is no text: its check is the check of another file, whose name has the
replacement character, and the diagnostics of the two documents come from one command line. -/
theorem run_checks_other_file :
    let runTool : Unit → Invocation → Unit × Outcome := fun _ _ => ((), .ok ⟨0, [], []⟩)
    let u : Url := ⟨"file", some ⟨[], [], []⟩, "/tmp/%FF.fish", none, none⟩
    let v : Url := ⟨"file", some ⟨[], [], []⟩, "/tmp/%EF%BF%BD.fish", none, none⟩
    let r : Request := ⟨u, [], "fish", true⟩
    let other : Request := ⟨v, [], "fish", true⟩
    Url.parse? "file:///tmp/%FF.fish" = some u ∧
      Url.parse? "file:///tmp/%EF%BF%BD.fish" = some v ∧
      r.isEligible = true ∧ other.isEligible = true ∧
      u.toPath? = some ⟨Percent.decode u.path⟩ ∧ v.toPath? = some ⟨Percent.decode v.path⟩ ∧
      Percent.decode u.path ≠ Percent.decode v.path ∧
      invocations runTool {} none none r () =
        [⟨"fish", ["-n", "/tmp/\uFFFD.fish"], none, none, some 30000⟩] ∧
      invocations runTool {} none none other () = invocations runTool {} none none r () ∧
      Utf8.encode "/tmp/\uFFFD.fish" ≠ Percent.decode u.path := by
  decide +kernel

end Lint

namespace Session

/-- A session that lints makes the runs that linting makes, for the document as it is held. -/
theorem startCheck_eq_invocations {s : Session} {url : Url} {e : Entry}
    (hlinting : s.settings.enableLinting = true) (he : s.documents.get? url = some e)
    {σ : Type} (runTool : σ → Invocation → σ × Outcome) (world : σ) :
    (s.startCheck url).2 =
      (Lint.invocations runTool s.settings s.root s.home ⟨url, e.text, e.language, e.saved⟩
        world).map (Effect.check s.generations.next) := by
  rw [Lint.invocations_eq]
  simp only [startCheck, hlinting, he, if_true]
  by_cases heligible : (Lint.Request.mk url e.text e.language e.saved).isEligible = true
  · rw [if_pos heligible]
    cases (Lint.Request.mk url e.text e.language e.saved).target? <;> rfl
  · rw [if_neg heligible, Lint.Request.target?, if_neg heligible]
    rfl

end Session

end FishCheck
