import FishCheck.Proofs.Session.History
import FishCheck.Proofs.Version.Lines
import FishCheck.Session.Server

/-!
# Setting up is all or nothing

An editor may try to set a session up several times, with documents opened and tools run in
between.  Each attempt works out settings and root and asks the checker of these settings, run
in that root, for its version.  When the checker gives none, nothing at all is changed; when it
does, settings, root and version take effect together.  So at any time these three are either
those of a fresh session or those of one attempt, the last one that succeeded.

Main results:

- Theorem `perform_of_failed`: an attempt that fails leaves the whole session as it was.
- Theorem `succeeds_iff`: an attempt succeeds exactly when the checker's output, or else its
  error output, has a version line.
- Theorem `root_eq_some_iff`: the root of an attempt.
- Theorem `all_or_nothing`: where settings, root and version of a session come from.
-/

namespace FishCheck

namespace Activation

open Session

/-! ## Attempts -/

/-- An attempt to set a session up: what is seen of files, what the editor sends, and how the
tools run. -/
structure Attempt where
  files : FileView
  params : Params.SetUp
  run : Invocation → Outcome

namespace Attempt

variable (commandLine : Option Text) (a : Attempt)

/-- The settings and root that the attempt works out. -/
def candidate : Candidate := Activation.candidate a.files commandLine a.params

/-- How the probe of the attempt ends. -/
def outcome : Outcome := a.run (probe (a.candidate commandLine))

/-- The version that the attempt finds. -/
def version? : Option Version :=
  (Version.conclude (a.candidate commandLine).settings (a.outcome commandLine)).toOption

/-- The session after the attempt. -/
def perform (s : Session) : Session :=
  (conclude s (a.candidate commandLine) (a.outcome commandLine)).1

end Attempt

/-- Something that happens to a session. -/
inductive Turn
  | attempt (a : Attempt)
  | event (e : Event)

/-- The session after a turn. -/
def Turn.after (commandLine : Option Text) (s : Session) : Turn → Session
  | .attempt a => a.perform commandLine s
  | .event e => (s.step e).1

/-- The version that a turn finds, if it is an attempt that succeeds. -/
def Turn.version? (commandLine : Option Text) : Turn → Option Version
  | .attempt a => a.version? commandLine
  | .event _ => none

/-- The session after some turns. -/
def afterAll (commandLine : Option Text) (s : Session) (turns : List Turn) : Session :=
  turns.foldl (Turn.after commandLine) s

/-- What an attempt sets: all of it, or nothing. -/
structure SetUp where
  settings : Settings
  root : Option Path
  version : Option Version
deriving DecidableEq

/-- What a session is set up with. -/
def setUpOf (s : Session) : SetUp := ⟨s.settings, s.root, s.version⟩

section OneTurn

variable {commandLine : Option Text} {a : Attempt}

/-- An attempt that fails leaves the whole session as it was. -/
theorem perform_of_failed (h : a.version? commandLine = none) (s : Session) :
    a.perform commandLine s = s := by
  unfold Attempt.version? at h
  rw [Attempt.perform]
  cases hprobe : Version.conclude (a.candidate commandLine).settings (a.outcome commandLine) with
  | error f => exact conclude_error hprobe
  | ok v =>
    rw [hprobe] at h
    cases h

/-- An attempt that succeeds sets settings, root and version, and nothing else. -/
theorem perform_of_version {v : Version} (h : a.version? commandLine = some v) (s : Session) :
    a.perform commandLine s =
      { s with
        settings := (a.candidate commandLine).settings
        root := (a.candidate commandLine).root
        version := some v } := by
  unfold Attempt.version? at h
  rw [Attempt.perform]
  cases hprobe : Version.conclude (a.candidate commandLine).settings (a.outcome commandLine) with
  | error f =>
    rw [hprobe] at h
    cases h
  | ok w =>
    rw [hprobe] at h
    rw [conclude_ok hprobe, Option.some.inj h]

/-- The version that an attempt finds: that of the first version line of the checker's output,
or of its error output when the output has none. -/
theorem version_eq_some_iff {v : Version} :
    a.version? commandLine = some v ↔ ∃ c, a.run (probe (a.candidate commandLine)) = .ok c ∧
      (Version.read? c.stdout = some v ∨
        (∀ line ∈ Text.pieces c.stdout, ∀ w : Version, ¬ w.IsLine line) ∧
          Version.read? c.stderr = some v) := by
  have hnone (t : Text) : Version.read? t = none ↔
      ∀ line ∈ Text.pieces t, ∀ w : Version, ¬ w.IsLine line := by
    rw [Option.eq_none_iff_forall_ne_some, ← not_exists, Version.exists_read_iff]
    push Not
    rfl
  have hok : a.version? commandLine = some v ↔
      Version.conclude (a.candidate commandLine).settings (a.outcome commandLine) = .ok v := by
    unfold Attempt.version?
    cases Version.conclude (a.candidate commandLine).settings (a.outcome commandLine) <;>
      simp [Except.toOption]
  rw [hok, Version.conclude_eq_ok_iff]
  simp only [hnone, Attempt.outcome]

/-- An attempt succeeds exactly when the checker's output, or else its error output, has a
version line. -/
theorem succeeds_iff :
    (∃ v, a.version? commandLine = some v) ↔
      ∃ c, a.run (probe (a.candidate commandLine)) = .ok c ∧
        ((∃ line ∈ Text.pieces c.stdout, ∃ v : Version, v.IsLine line) ∨
          ∃ line ∈ Text.pieces c.stderr, ∃ v : Version, v.IsLine line) := by
  constructor
  · rintro ⟨v, hv⟩
    obtain ⟨c, hrun, hfound⟩ := version_eq_some_iff.1 hv
    refine ⟨c, hrun, hfound.imp (fun h => ?_) fun h => ?_⟩
    · exact Version.exists_read_iff.1 ⟨v, h⟩
    · exact Version.exists_read_iff.1 ⟨v, h.2⟩
  · rintro ⟨c, hrun, hlines⟩
    by_cases hout : ∃ line ∈ Text.pieces c.stdout, ∃ v : Version, v.IsLine line
    · obtain ⟨v, hv⟩ := Version.exists_read_iff.2 hout
      exact ⟨v, version_eq_some_iff.2 ⟨c, hrun, .inl hv⟩⟩
    · obtain ⟨v, hv⟩ := Version.exists_read_iff.2 (hlines.resolve_left hout)
      push Not at hout
      exact ⟨v, version_eq_some_iff.2 ⟨c, hrun, .inr ⟨hout, hv⟩⟩⟩

/-- The root of an attempt is the local path of the root that the editor names, or else, when
that is not on this machine, of the first folder. -/
theorem root_eq_some_iff {dir : Path} :
    (a.candidate commandLine).root = some dir ↔
      (∃ url, a.params.rootUrl = some url ∧ url.toPath? = some dir) ∨
        (∀ url, a.params.rootUrl = some url → url.toPath? = none) ∧
          ∃ url rest, a.params.folders = some (url :: rest) ∧ url.toPath? = some dir := by
  have hroot : (a.candidate commandLine).root = ((a.params.rootUrl.bind Url.toPath?).or
      ((a.params.folders.bind List.head?).bind Url.toPath?)) := Option.orElse_eq_or
  rw [hroot, Option.or_eq_some_iff, Option.bind_eq_none_iff]
  simp only [Option.bind_eq_some_iff, List.head?_eq_some_iff]
  grind

/-- No event of a session changes the version that its checker gave. -/
theorem version_step (s : Session) (e : Event) : (s.step e).1.version = s.version := by
  cases e with
  | opened u text language version =>
    rcases startCheck_cases { s with documents := s.documents.opened u text language version } u
      with h | ⟨-, h⟩ | ⟨_, _, -, -, h⟩ <;> simp [step, h]
  | saved u text? =>
    rcases startCheck_cases { s with documents := s.documents.saved u text? } u with
      h | ⟨-, h⟩ | ⟨_, _, -, -, h⟩ <;> simp [step, h]
  | checked generation outcome =>
    simp only [step, finishCheck]
    split <;> rfl
  | formatRequested request u range? =>
    simp only [step, startFormat]
    split
    · split
      · rfl
      · split <;> rfl
    · rfl
  | formatted request outcome =>
    simp only [step, finishFormat]
    split <;> rfl
  | changed u texts version => rfl
  | closed u => rfl
  | cancelled request => rfl

/-- A turn that finds no version changes nothing of what the session is set up with. -/
theorem setUpOf_after {t : Turn} (h : t.version? commandLine = none) (s : Session) :
    setUpOf (t.after commandLine s) = setUpOf s := by
  cases t with
  | attempt a => rw [Turn.after, perform_of_failed h]
  | event e =>
    obtain ⟨hsettings, hroot, -⟩ := setUp_step s e
    simp only [setUpOf, Turn.after, hsettings, hroot, version_step]

end OneTurn

/-! ## Many turns -/

variable {commandLine : Option Text}

/-- Turns that find no version change nothing of what the session is set up with. -/
theorem setUpOf_afterAll {turns : List Turn} (h : ∀ t ∈ turns, t.version? commandLine = none)
    (s : Session) : setUpOf (afterAll commandLine s turns) = setUpOf s := by
  induction turns generalizing s with
  | nil => rfl
  | cons t turns ih =>
    obtain ⟨hfirst, hrest⟩ := List.forall_mem_cons.1 h
    rw [afterAll, List.foldl_cons]
    exact (ih hrest _).trans (setUpOf_after hfirst s)

/-- After a turn that finds a version, and others that find none, the session is set up with
what that turn worked out. -/
theorem setUpOf_of_last {front back : List Turn} {a : Attempt} {v : Version}
    (hv : a.version? commandLine = some v) (h : ∀ t ∈ back, t.version? commandLine = none)
    (s : Session) :
    setUpOf (afterAll commandLine s (front ++ .attempt a :: back)) =
      ⟨(a.candidate commandLine).settings, (a.candidate commandLine).root, some v⟩ := by
  have hsplit : afterAll commandLine s (front ++ .attempt a :: back) =
      afterAll commandLine (a.perform commandLine (afterAll commandLine s front)) back := by
    rw [afterAll, List.foldl_append, List.foldl_cons]
    rfl
  rw [hsplit, setUpOf_afterAll h, perform_of_version hv]
  rfl

/-- Among some turns none finds a version, or one is the last that does. -/
theorem none_or_last (turns : List Turn) :
    (∀ t ∈ turns, t.version? commandLine = none) ∨
      ∃ front a back v, turns = front ++ .attempt a :: back ∧
        a.version? commandLine = some v ∧ ∀ t ∈ back, t.version? commandLine = none := by
  induction turns with
  | nil => exact .inl fun t ht => absurd ht List.not_mem_nil
  | cons t turns ih =>
    rcases ih with hnone | ⟨front, a, back, v, rfl, hv, hback⟩
    · cases ht : t.version? commandLine with
      | none => exact .inl (List.forall_mem_cons.2 ⟨ht, hnone⟩)
      | some v =>
        cases t with
        | attempt a => exact .inr ⟨[], a, turns, v, rfl, ht, hnone⟩
        | event e => cases ht
    · exact .inr ⟨t :: front, a, back, v, rfl, hv, hback⟩

/-! ## Messages -/

/-- A message that asks a server for the set-up makes it ask the checker, and the end of that
run ends the attempt: the session is the one after the attempt, and the server serves exactly
when the attempt found a version. -/
theorem attempt_of_message {s : Server} (hphase : s.phase = .uninitialized) {m : Message}
    (hmethod : m.method = "initialize") {id : RequestId} (hid : m.id? = some id) (a : Attempt)
    (hparams : m.params?.bind Params.setUp? = some a.params) :
    ∃ asked, s.receive a.files m =
        (asked, [.start (.probe id) (probe (a.candidate s.settingsFile))]) ∧
      asked.session = s.session ∧
      (asked.complete (.probe id) (a.outcome s.settingsFile)).1.session =
        a.perform s.settingsFile s.session ∧
      (asked.complete (.probe id) (a.outcome s.settingsFile)).1.phase =
        (if (a.version? s.settingsFile).isSome then .ready else .uninitialized) := by
  have hreceive : s.receive a.files m =
      ({ s with phase := .initializing id (a.candidate s.settingsFile) },
        [.start (.probe id) (probe (a.candidate s.settingsFile))]) := by
    have hmethods : ("initialize" : Text) ≠ "exit" ∧ ("initialize" : Text) ≠ "$/cancelRequest" := by
      decide
    rw [Server.receive, if_neg (by rw [hphase]; decide), hmethod, if_neg hmethods.1,
      if_neg hmethods.2, if_pos rfl, Server.receiveSetUp, if_pos hphase, hid]
    simp only [Server.startSetUp, hparams, Attempt.candidate]
  refine ⟨_, hreceive, rfl, ?_⟩
  cases hprobe : Version.conclude (a.candidate s.settingsFile).settings
      (a.outcome s.settingsFile) <;>
    simp [Server.complete, Server.finishProbe, Attempt.perform, Attempt.version?, conclude,
      hprobe, Except.toOption]

/-! ## The result -/

/-- Setting up is all or nothing.  An attempt that finds no version leaves the whole session as
it was; one that finds a version does so on the first version line of the checker's output, or
else of its error output.  After any turns of a fresh session, settings, root and version are
those of a fresh session and no attempt succeeded, or they are those of the last attempt that
succeeded, with the version of the checker of these settings, run in that root.  The root of an
attempt is the local path of the root that the editor names, or else of the first folder. -/
theorem all_or_nothing (commandLine : Option Text) (home : Option Path) (turns : List Turn) :
    (∀ a : Attempt, a.version? commandLine = none → ∀ s, a.perform commandLine s = s) ∧
    (∀ a : Attempt, (∃ v, a.version? commandLine = some v) ↔
      ∃ c, a.run (probe (a.candidate commandLine)) = .ok c ∧
        ((∃ line ∈ Text.pieces c.stdout, ∃ v : Version, v.IsLine line) ∨
          ∃ line ∈ Text.pieces c.stderr, ∃ v : Version, v.IsLine line)) ∧
    (∀ (a : Attempt) (dir : Path), (a.candidate commandLine).root = some dir ↔
      (∃ url, a.params.rootUrl = some url ∧ url.toPath? = some dir) ∨
        (∀ url, a.params.rootUrl = some url → url.toPath? = none) ∧
          ∃ url rest, a.params.folders = some (url :: rest) ∧ url.toPath? = some dir) ∧
    (((∀ t ∈ turns, t.version? commandLine = none) ∧
        setUpOf (afterAll commandLine { home := home } turns) = ⟨{}, none, none⟩) ∨
      ∃ front a back v, turns = front ++ .attempt a :: back ∧
        (∀ t ∈ back, t.version? commandLine = none) ∧
        setUpOf (afterAll commandLine { home := home } turns) =
          ⟨(a.candidate commandLine).settings, (a.candidate commandLine).root, some v⟩ ∧
        ∃ c, a.run (Version.invocation (a.candidate commandLine).settings
            (a.candidate commandLine).root) = .ok c ∧
          (Version.read? c.stdout = some v ∨
            (∀ line ∈ Text.pieces c.stdout, ∀ w : Version, ¬ w.IsLine line) ∧
              Version.read? c.stderr = some v)) ∧
    ∀ (s : Server) (m : Message) (id : RequestId) (a : Attempt), s.phase = .uninitialized →
      m.method = "initialize" → m.id? = some id → m.params?.bind Params.setUp? = some a.params →
      ∃ asked, s.receive a.files m =
          (asked, [.start (.probe id) (probe (a.candidate s.settingsFile))]) ∧
        asked.session = s.session ∧
        (asked.complete (.probe id) (a.outcome s.settingsFile)).1.session =
          a.perform s.settingsFile s.session ∧
        (asked.complete (.probe id) (a.outcome s.settingsFile)).1.phase =
          (if (a.version? s.settingsFile).isSome then .ready else .uninitialized) := by
  refine ⟨fun a h => perform_of_failed h, fun a => succeeds_iff,
    fun a dir => root_eq_some_iff, ?_, fun s m id a hphase hmethod hid hparams =>
      attempt_of_message hphase hmethod hid a hparams⟩
  rcases none_or_last turns with hnone | ⟨front, a, back, v, rfl, hv, hback⟩
  · exact .inl ⟨hnone, setUpOf_afterAll hnone _⟩
  · exact .inr ⟨front, a, back, v, rfl, hback, setUpOf_of_last hv hback _,
      version_eq_some_iff.1 hv⟩

/-- The URL of a directory. -/
def directoryUrl (path : Text) : Url := ⟨"file", some ⟨[], [], []⟩, path, none, none⟩

/-- A settings file in one directory, and no other file. -/
def projectFiles : FileView where
  present path := path = "/work/project/.fishlint.toml"
  isFile path := path = "/work/project/.fishlint.toml"
  read path :=
    if path = "/work/project/.fishlint.toml" then .ok (Utf8.encode "timeout = 5\n")
    else .error []

/-- An attempt with a root, a folder and options that name the checker. -/
def attemptWith (rootUrl : Option Url) (folder : Url) (checker : Text)
    (run : Invocation → Outcome) : Attempt where
  files := projectFiles
  params := ⟨rootUrl, some [folder], some (.obj [("checker", .str checker)])⟩
  run := run

/-- An attempt in the directory of the settings file, whose checker answers there only, on its
error output and with an exit code that is not zero. -/
def rootedAttempt : Attempt :=
  attemptWith (some (directoryUrl "/work/project")) (directoryUrl "/other") "b" fun i =>
    if i.cwd = some "/work/project" then .ok ⟨1, "usage", "hello\nfish, version 3.7.1"⟩
    else .error (.notFound i.program)

/-- The message that makes a server go through this attempt. -/
def rootedMessage : Message where
  method := "initialize"
  id? := some (.number 1)
  params? := some (.obj [("rootUri", .str "file:///work/project"), ("capabilities", .obj []),
    ("workspaceFolders", .arr [.obj [("uri", .str "file:///other"), ("name", .str "other")]]),
    ("initializationOptions", .obj [("checker", .str "b")])])

/-- An attempt with a checker that is missing. -/
def missingAttempt : Attempt :=
  attemptWith none (directoryUrl "/other") "a" fun i => .error (.notFound i.program)

/-- Three attempts; the checker of the last one answers without a version. -/
def retries : List Turn :=
  [.attempt missingAttempt, .attempt rootedAttempt,
    .attempt (attemptWith (some (directoryUrl "/work")) (directoryUrl "/other") "c" fun _ =>
      .ok ⟨0, "fish version 4", []⟩)]

/-- Of three attempts the second one succeeds, in the root that it names and with the settings
that are there, and the others leave everything alone.  A server that is asked for the second
one runs its checker in this root, and then serves. -/
theorem all_or_nothing_of_retries :
    setUpOf (afterAll none {} retries) =
        ⟨{ checker := "b", timeout := 5 }, some "/work/project", some ⟨"fish", "3.7.1"⟩⟩ ∧
      (rootedAttempt.candidate none).root = some "/work/project" ∧
      (missingAttempt.candidate none).root = some "/other" ∧
      (∃ front a back c, retries = front ++ .attempt a :: back ∧
        (a.candidate none).settings.checker = ("b" : Text) ∧
        a.run ⟨"b", ["--version"], none, some "/work/project", some 5⟩ = .ok c) ∧
      (∃ asked, ({} : Server).receive projectFiles rootedMessage =
          (asked, [.start (.probe (.number 1))
            ⟨"b", ["--version"], none, some "/work/project", some 5⟩]) ∧
        (asked.complete (.probe (.number 1)) (rootedAttempt.outcome none)).1.phase = .ready) ∧
      ∀ s, missingAttempt.perform none s = s := by
  have hsetUp : setUpOf (afterAll none {} retries) =
      ⟨{ checker := "b", timeout := 5 }, some "/work/project", some ⟨"fish", "3.7.1"⟩⟩ := by
    decide +kernel
  have hfailed : missingAttempt.version? none = none := by decide +kernel
  have hsucceeded : (rootedAttempt.version? none).isSome = true := by decide +kernel
  have hprobe : probe (rootedAttempt.candidate none) =
      ⟨"b", ["--version"], none, some "/work/project", some 5⟩ := by decide +kernel
  obtain ⟨hsame, -, hroot, hlast, hmessage⟩ := all_or_nothing none none retries
  have hrooted : (rootedAttempt.candidate none).root = some "/work/project" :=
    (hroot rootedAttempt _).2 (.inl ⟨directoryUrl "/work/project", rfl, by decide +kernel⟩)
  have hfolder : (missingAttempt.candidate none).root = some "/other" :=
    (hroot missingAttempt _).2
      (.inr ⟨(fun url h => by cases h), directoryUrl "/other", [], rfl, by decide +kernel⟩)
  refine ⟨hsetUp, hrooted, hfolder, ?_, ?_, hsame _ hfailed⟩
  · rcases hlast with ⟨-, hfresh⟩ | ⟨front, a, back, v, hsplit, -, hcandidate, c, hrun, -⟩
    · exact absurd (hsetUp.symm.trans hfresh) (by decide)
    · obtain ⟨hsettings, hdir, -⟩ := SetUp.mk.inj (hsetUp.symm.trans hcandidate)
      rw [← hsettings, ← hdir] at hrun
      exact ⟨front, a, back, c, hsplit, (congrArg Settings.checker hsettings).symm, hrun⟩
  · obtain ⟨asked, hasked, -, -, hphase⟩ :=
      hmessage {} rootedMessage (.number 1) rootedAttempt rfl rfl rfl rfl
    rw [if_pos hsucceeded] at hphase
    exact ⟨asked, hprobe ▸ hasked, hphase⟩

end Activation

end FishCheck
