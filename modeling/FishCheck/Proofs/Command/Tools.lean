import FishCheck.Command.Line
import FishCheck.Proofs.Command.Checking
import FishCheck.Proofs.Command.Installing

/-!
# Which tools a command runs

Once a command has its settings, it runs the checker and the formatter that these name, with
the arguments and under the limit that these set, and nothing else.  How tools are run is a
parameter, so this is said by comparing: two ways to run tools that agree on the runs which the
settings give lead a command to the same host and the same report.

Main results:

- Theorem `Check.checkAll_congr`: checks run the checker of the settings only.
- Theorem `Formatting.formatAll_congr`: formatting runs the formatter of the settings only.
- Theorem `CommandLine.perform_congr`: a command runs the tools that its settings give only.
- Theorem `CommandLine.worksWith_of_resolve`: what the commands do with their settings.
-/

namespace FishCheck

/-! ## The runs that settings give -/

/-- A run that settings give: of the checker, on a file or for its version, or of the formatter
with its arguments, under the limit. -/
def Settings.Gives (s : Settings) (i : Invocation) : Prop :=
  i.timeout = s.limit ∧
  (i.program = s.checker ∧ i.stdin = none ∧
      (i.args = ["--version"] ∨ ∃ file : Text, i.args = ["-n".toList, file]) ∨
    i.program = s.formatter ∧ i.args = s.formatterArgs ∧ i.stdin.isSome = true)

/-- Two ways to run tools agree on the runs that settings give. -/
def Executor.AgreeFor (exec exec' : Executor) (s : Settings) : Prop :=
  ∀ h i, s.Gives i → exec h i = exec' h i

theorem Settings.gives_check (s : Settings) (cwd : Option Path) (file : Path) :
    s.Gives (Lint.invocation s cwd file) :=
  ⟨rfl, .inl ⟨rfl, rfl, .inr ⟨file.toText, rfl⟩⟩⟩

theorem Settings.gives_format (s : Settings) (cwd : Option Path) (d : Document) (r : Range) :
    s.Gives (Format.invocation s cwd d r) :=
  ⟨rfl, .inr ⟨rfl, rfl, rfl⟩⟩

theorem Settings.gives_probe (s : Settings) (cwd : Option Path) :
    s.Gives (Version.invocation s cwd) :=
  ⟨rfl, .inl ⟨rfl, rfl, .inl rfl⟩⟩

section Agreeing

variable {exec exec' : Executor} {s : Settings} (hagree : exec.AgreeFor exec' s)
include hagree

/-! ## Checking -/

namespace Check

/-- The check of a file runs the checker of the settings only. -/
theorem checkFile_congr (h : Host) (path : Path) :
    checkFile exec s h path = checkFile exec' s h path := by
  cases hread : Command.readText h path with
  | error message =>
    rw [checkFile_of_unreadable exec s hread, checkFile_of_unreadable exec' s hread]
  | ok text =>
    obtain ⟨-, file, -, -, -, hfile⟩ := exists_request h path text
    rw [checkFile_of_text exec s hread hfile, checkFile_of_text exec' s hread hfile]
    simp only [Executor.outcome, hagree h _ (s.gives_check _ file)]

theorem checkAll_congr (h : Host) (paths : List Path) :
    checkAll exec s h paths = checkAll exec' s h paths := by
  induction paths generalizing h with
  | nil => rfl
  | cons path paths ih => simp only [checkAll, checkFile_congr hagree, ih]

end Check

/-! ## Formatting -/

namespace Formatting

/-- Formatting a text runs the formatter of the settings only. -/
theorem formatText_congr (h : Host) (text : Text) :
    formatText exec s h text = formatText exec' s h text := by
  simp only [formatText, hagree h _ (s.gives_format _ _ _)]

theorem examineAll_congr (h : Host) (texts : List (Path × Except Text Text)) :
    examineAll exec s h texts = examineAll exec' s h texts := by
  induction texts generalizing h with
  | nil => rfl
  | cons entry texts ih =>
    obtain ⟨path, text | text⟩ := entry
    · simp only [examineAll, examine, ih]
    · simp only [examineAll, examine, formatText_congr hagree, ih]

theorem formatAll_congr (check : Bool) (width : Nat) (h : Host) (paths : List Path) :
    formatAll exec s check width h paths = formatAll exec' s check width h paths := by
  induction h, paths using formatAll.induct exec s check width with
  | case1 h => rw [formatAll, formatAll]
  | case2 h path paths after results htogether _ _ _ ih =>
    have htogether' : formatTogether exec' s check h (path :: paths.take (width - 1)) =
        formatTogether exec s check h (path :: paths.take (width - 1)) := by
      simp only [formatTogether, examineAll_congr hagree]
    rw [formatAll, formatAll, htogether', htogether]
    simp only [ih]

theorem runFiles_congr (p : Palette) (h : Host) (args : List Text) (check : Bool) :
    runFiles exec p s h args check = runFiles exec' p s h args check := by
  simp only [runFiles, formatAll_congr hagree]

theorem runInput_congr (p : Palette) (h : Host) (stdin : Bytes) :
    runInput exec p s h stdin = runInput exec' p s h stdin := by
  simp only [runInput, formatText_congr hagree]

end Formatting

end Agreeing

/-! ## Commands -/

namespace CommandLine

/-- Whether a request is for one of the commands that read settings first. -/
def readsSettings : Request → Bool
  | .check .. | .format .. | .version => true
  | _ => false

/-- A command line does its work with settings.  A check gives each file to their checker, and
formatting each text to their formatter; the version is asked of their checker.  No command runs
anything else. -/
structure WorksWith (exec : Executor) (p : Palette) (h : Host) (o : SharedOptions) (stdin : Bytes)
    (s : Settings) : Prop where
  /-- A check goes through its files and reports what it finds in them. -/
  check : ∀ args quiet files, Discovery.find h.tree h.cwd args = .ok files →
    ∃ after results, Check.Checks exec s h files after results ∧
      perform exec p h o stdin (.check args quiet) = (after, Check.report p quiet results)
  /-- Formatting goes one of the ways in which the work on its files can go. -/
  formatFiles : ∀ args check files, Discovery.find h.tree h.cwd args = .ok files →
    ∃ b, Formatting.Formats exec s check h files b ∧
      perform exec p h o stdin (.format args check false) =
        (b.host, Formatting.report p check b.results)
  /-- A text on the standard input is answered as the formatter run on it ends. -/
  formatInput : ∀ args check text, stdin = Utf8.encode text →
    (perform exec p h o stdin (.format args check true)).1 =
        (exec h (Formatting.wholeRun s h text)).1 ∧
      Formatting.Answers stdin (exec h (Formatting.wholeRun s h text)).2
        (perform exec p h o stdin (.format args check true)).2
  /-- The version of the checker is printed with its name. -/
  version : ∀ after result v,
    exec h ⟨s.checker, ["--version"], none, none, s.limit⟩ = (after, result) →
    Version.conclude s (result.map Output.decode) = .ok v →
    perform exec p h o stdin .version =
      (after, ⟨0, banner ++ Command.line (v.toText ++ " (" ++ s.checker ++ ")"), []⟩)
  /-- A checker that gives no version is an error. -/
  noVersion : ∀ after result f,
    exec h ⟨s.checker, ["--version"], none, none, s.limit⟩ = (after, result) →
    Version.conclude s (result.map Output.decode) = .error f →
    perform exec p h o stdin .version =
      (after, ⟨2, banner, Command.line (p.error ++ ": " ++ f.message)⟩)
  /-- Only runs that the settings give are made. -/
  tools : ∀ exec', exec.AgreeFor exec' s → ∀ r, readsSettings r = true →
    perform exec p h o stdin r = perform exec' p h o stdin r

/-- A command that has its settings runs the tools that these give and no others. -/
theorem perform_congr {exec exec' : Executor} {p : Palette} {h : Host} {o : SharedOptions}
    {stdin : Bytes} {s : Settings} (hs : Command.resolve h (overrides o) = .ok s)
    (hagree : exec.AgreeFor exec' s) {r : Request} (hr : readsSettings r = true) :
    perform exec p h o stdin r = perform exec' p h o stdin r := by
  cases r with
  | check args quiet => simp only [perform, Check.run, hs, Check.checkAll_congr hagree]
  | format args check fromInput =>
    simp only [perform, Formatting.run, hs, Formatting.runInput_congr hagree,
      Formatting.runFiles_congr hagree]
  | version => simp only [perform, version, hs, hagree h _ (s.gives_probe none)]
  | serve | ownVersion | help => cases hr

/-- A command line that has settings does its work with them. -/
theorem worksWith_of_resolve (exec : Executor) (p : Palette) {h : Host} {o : SharedOptions}
    (stdin : Bytes) {s : Settings} (hs : Command.resolve h (overrides o) = .ok s) :
    WorksWith exec p h o stdin s where
  check args quiet files hfind := by
    refine ⟨_, _, Check.checks_checkAll exec s h files, ?_⟩
    simp only [perform, Check.run, hs, hfind]
  formatFiles args check files hfind := by
    obtain ⟨b, hb, hrun⟩ := Formatting.run_eq_formats (p := p) hs hfind check stdin
    exact ⟨b, hb, hrun⟩
  formatInput args check text hstdin := by
    subst hstdin
    have hrun : perform exec p h o (Utf8.encode text) (.format args check true) =
        Formatting.runInput exec p s h (Utf8.encode text) := by
      simp only [perform, Formatting.run, hs, if_true]
    rw [hrun]
    exact ⟨Formatting.runInput_host text, Formatting.runInput_of_text text⟩
  version after result v hrun hv := by
    have hprobe : exec h (Version.invocation s none) = (after, result) := hrun
    simp only [perform, CommandLine.version, hs, hprobe, hv]
    rfl
  noVersion after result f hrun hf := by
    have hprobe : exec h (Version.invocation s none) = (after, result) := hrun
    simp only [perform, CommandLine.version, hs, hprobe, hf]
    rfl
  tools exec' hagree r hr := perform_congr hs hagree hr

end CommandLine

end FishCheck
