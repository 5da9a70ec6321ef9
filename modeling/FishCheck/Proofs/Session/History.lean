import FishCheck.Session.Basic
import Mathlib.Data.List.Basic
import Mathlib.Data.List.Induction

/-!
# Histories of sessions

A history is what a run of a session looks like from outside: one moment for each
event, with the session before the event.  From it one reads which checker runs were
started and ended, when documents were closed, and what was published for each of
them.  No notion here looks at the numbers that the session gives to its runs, so the
statements about histories say what those numbers are good for.

Main results:

- Theorem `history_append_singleton`: a history grows by one moment at its end.
- Theorem `history_split`: every moment of a history is the step of a session
  that the events before it lead to.
- Theorem `flatMap_effects_history`: the effects of a run are those of its moments.
- Theorem `Moment.change`: everything that one step can do to the runs under way,
  to the numbers and to the published diagnostics.
-/

namespace FishCheck

namespace Session

/-- A session that was just set up: nothing is open, and no run was ever started. -/
def justSetUp (settings : Settings) (root : Option Path) (version : Option Version)
    (home : Option Path) : Session where
  settings := settings
  root := root
  version := version
  home := home

/-! ## Moments -/

/-- One step of a session: the session before it and the event that it takes. -/
structure Moment where
  before : Session
  event : Event

namespace Moment

/-- The session after a moment. -/
def after (m : Moment) : Session := (m.before.step m.event).1

/-- What the session does at a moment, in order. -/
def effects (m : Moment) : List Effect := (m.before.step m.event).2

/-- The checker runs that a moment starts: those under way after it and not before. -/
def started (m : Moment) : List CheckRun :=
  m.after.checks.filter fun run => run ∉ m.before.checks

/-- The checker runs that a moment ends, each with its outcome. -/
def ended (m : Moment) : List (CheckRun × Outcome) :=
  match m.event with
  | .checked generation outcome =>
    (m.before.checks.filter fun run => run.generation = generation).map fun run => (run, outcome)
  | _ => []

end Moment

/-- The diagnostics and version that an effect publishes for a document. -/
def Effect.publication? (u : Url) : Effect → Option (List Diagnostic × Option Int)
  | .publish v diagnostics version? => if v = u then some (diagnostics, version?) else none
  | _ => none

/-- What a moment publishes for a document. -/
def Moment.published (u : Url) (m : Moment) : List (List Diagnostic × Option Int) :=
  m.effects.filterMap (Effect.publication? u)

/-- What the diagnostics of a document hinge on: its closings and the starts of its runs. -/
inductive Mark
  | closing
  | start (run : CheckRun)
deriving DecidableEq, Repr

/-- The closing of a document that a moment brings. -/
def Moment.closings (u : Url) (m : Moment) : List Mark :=
  match m.event with
  | .closed v => if v = u then [.closing] else []
  | _ => []

/-- The marks of a document that a moment leaves. -/
def Moment.marks (u : Url) (m : Moment) : List Mark :=
  m.closings u ++ (m.started.filter fun run => run.url = u).map .start

/-- The runs that publish something for a document at a moment, which is when they end. -/
def Moment.publishers (u : Url) (m : Moment) : List CheckRun :=
  if m.published u = [] then [] else m.ended.map (·.1)

/-! ## Histories -/

/-- The moments of a run, in order. -/
def history (s : Session) : List Event → List Moment
  | [] => []
  | e :: es => ⟨s, e⟩ :: history (s.step e).1 es

/-- The checker runs started in a history, in order. -/
def starts (H : List Moment) : List CheckRun := H.flatMap Moment.started

/-- The checker runs of one document started in a history, in order. -/
def startsOf (u : Url) (H : List Moment) : List CheckRun :=
  (starts H).filter fun run => run.url = u

/-- The checker runs ended in a history, in order, each with its outcome. -/
def ends (H : List Moment) : List (CheckRun × Outcome) := H.flatMap Moment.ended

/-- What was published for a document, in order. -/
def publications (u : Url) (H : List Moment) : List (List Diagnostic × Option Int) :=
  H.flatMap (Moment.published u)

/-- The runs that published something for a document, in order. -/
def publishers (u : Url) (H : List Moment) : List CheckRun := H.flatMap (Moment.publishers u)

/-- The last closing of a document or start of a run of it, whichever came later. -/
def lastMark (u : Url) (H : List Moment) : Option Mark := (H.flatMap (Moment.marks u)).getLast?

theorem history_append (s : Session) (es fs : List Event) :
    history s (es ++ fs) = history s es ++ history (s.run es).1 fs := by
  induction es generalizing s with
  | nil => rfl
  | cons e es ih => simp [history, run, ih]

/-- A history grows by one moment at its end. -/
theorem history_append_singleton (s : Session) (es : List Event) (e : Event) :
    history s (es ++ [e]) = history s es ++ [⟨(s.run es).1, e⟩] := by
  rw [history_append]
  rfl

/-- Every moment of a history is the step of the session that the events before it
lead to. -/
theorem history_split {s : Session} {es : List Event} {H : List Moment} {m : Moment}
    {K : List Moment} (h : history s es = H ++ m :: K) :
    ∃ fs, H = history s fs ∧ m.before = (s.run fs).1 := by
  induction es generalizing s H with
  | nil => simp [history] at h
  | cons e es ih =>
    cases H with
    | nil =>
      simp only [history, List.nil_append, List.cons.injEq] at h
      obtain ⟨rfl, -⟩ := h
      exact ⟨[], rfl, rfl⟩
    | cons n H =>
      simp only [history, List.cons_append, List.cons.injEq] at h
      obtain ⟨rfl, h⟩ := h
      obtain ⟨fs, rfl, hm⟩ := ih h
      exact ⟨e :: fs, rfl, by simpa [run] using hm⟩

/-- What a run does is what its moments do. -/
theorem flatMap_effects_history (s : Session) (es : List Event) :
    (history s es).flatMap Moment.effects = (s.run es).2 := by
  induction es generalizing s with
  | nil => rfl
  | cons e es ih => simp [history, run, ih, Moment.effects]

/-! ## What one step can do -/

/-- An effect that neither publishes diagnostics nor says that linting failed. -/
def Effect.IsAside (e : Effect) : Prop :=
  (∀ u, e.publication? u = none) ∧ ∀ f, e ≠ .showError (lintingUnavailable f)

/-- Everything that a moment can do to the runs under way, to the numbers and to the
published diagnostics. -/
inductive Moment.Change (m : Moment) : Prop
  /-- Runs, numbers and diagnostics stay as they are. -/
  | quiet
      (hclosings : ∀ u, m.closings u = [])
      (hended : m.ended = [])
      (hchecks : m.after.checks = m.before.checks)
      (hgenerations : m.after.generations = m.before.generations)
      (heffects : ∀ e ∈ m.effects, e.IsAside)
  /-- A document is closed. -/
  | closing (u : Url)
      (hevent : m.event = .closed u)
      (hchecks : m.after.checks = m.before.checks)
      (hgenerations : m.after.generations = m.before.generations.retire u)
      (heffects : m.effects = [.publish u [] none])
  /-- A run starts on the stored document, with a fresh number. -/
  | start (run : CheckRun)
      (hclosings : ∀ u, m.closings u = [])
      (hended : m.ended = [])
      (hgeneration : run.generation = m.before.generations.next)
      (hpath : run.url.toPath? = some run.path)
      (hentry : m.after.documents.get? run.url = some run.entry)
      (hchecks : m.after.checks = m.before.checks ++ [run])
      (hgenerations : m.after.generations = m.before.generations.start run.url)
      (heffects : m.effects =
        [.check run.generation (Lint.invocation m.before.settings m.before.root run.path)])
  /-- A document without a local path takes a number, but there is nothing to run. -/
  | number (u : Url)
      (hclosings : ∀ u, m.closings u = [])
      (hended : m.ended = [])
      (hpath : u.toPath? = none)
      (hchecks : m.after.checks = m.before.checks)
      (hgenerations : m.after.generations = m.before.generations.start u)
      (heffects : m.effects = [])
  /-- A run ends. -/
  | finish (run : CheckRun) (outcome : Outcome)
      (hevent : m.event = .checked run.generation outcome)
      (hrun : run ∈ m.before.checks)
      (hchecks : m.after.checks =
        m.before.checks.filter fun r => r.generation ≠ run.generation)
      (hgenerations : m.after.generations = m.before.generations)
      (heffects : m.effects =
        if m.before.generations.isCurrent run.url run.generation then
          m.before.verdict run outcome
        else [])

/-- Linting a document starts a run, takes a number, or does nothing at all. -/
theorem startCheck_cases (s : Session) (u : Url) :
    s.startCheck u = (s, []) ∨
      (u.toPath? = none ∧ s.startCheck u = ({ s with generations := s.generations.start u }, [])) ∨
      ∃ path entry, u.toPath? = some path ∧ s.documents.get? u = some entry ∧
        s.startCheck u =
          ({ s with
              generations := s.generations.start u
              checks := s.checks ++ [⟨s.generations.next, u, path, entry⟩] },
            [.check s.generations.next (Lint.invocation s.settings s.root path)]) := by
  unfold startCheck
  split
  · cases hentry : s.documents.get? u with
    | none => exact Or.inl rfl
    | some entry =>
      simp only
      split
      · rename_i heligible
        simp only [Lint.Request.target?, heligible, if_true]
        cases hpath : u.toPath? with
        | none => exact Or.inr (Or.inl ⟨rfl, rfl⟩)
        | some path => exact Or.inr (Or.inr ⟨path, entry, rfl, rfl, rfl⟩)
      · exact Or.inl rfl
  · exact Or.inl rfl

/-- The two messages about tools that cannot be run differ in their first words. -/
theorem formattingUnavailable_ne (f g : Failure) :
    formattingUnavailable f ≠ lintingUnavailable g := by
  unfold formattingUnavailable lintingUnavailable
  generalize f.message = s
  generalize g.message = t
  intro h
  have hword := congrArg (fun t : Text => t[10]?) h
  simp at hword

theorem isAside_answer (request : RequestId) (edits? : Option (List Format.Edit)) :
    (Effect.answer request edits?).IsAside :=
  ⟨fun _ => rfl, fun _ => by simp⟩

theorem isAside_format (request : RequestId) (invocation : Invocation) :
    (Effect.format request invocation).IsAside :=
  ⟨fun _ => rfl, fun _ => by simp⟩

theorem isAside_formattingUnavailable (f : Failure) :
    (Effect.showError (formattingUnavailable f)).IsAside := by
  refine ⟨fun _ => rfl, fun g h => ?_⟩
  exact formattingUnavailable_ne f g (Effect.showError.inj h)

/-- What a formatter run answers has nothing to do with diagnostics. -/
theorem isAside_of_mem_formatAnswer {run : FormatRun} {outcome : Outcome} {e : Effect}
    (he : e ∈ formatAnswer run outcome) : e.IsAside := by
  unfold formatAnswer at he
  split at he
  · rw [List.mem_singleton.1 he]
    exact isAside_answer _ _
  · rw [List.mem_singleton.1 he]
    exact isAside_answer _ _
  · rcases List.mem_cons.1 he with rfl | he
    · exact isAside_formattingUnavailable _
    · rw [List.mem_singleton.1 he]
      exact isAside_answer _ _

/-- Asking for formatting leaves runs, numbers and diagnostics alone. -/
theorem startFormat_aside (s : Session) (request : RequestId) (u : Url) (range? : Option Range) :
    (s.startFormat request u range?).1.checks = s.checks ∧
      (s.startFormat request u range?).1.generations = s.generations ∧
      ∀ e ∈ (s.startFormat request u range?).2, e.IsAside := by
  unfold startFormat
  split
  · split
    · simp [isAside_answer]
    · split <;> simp [isAside_answer, isAside_format]
  · simp [isAside_answer]

/-- So does the end of a formatter run. -/
theorem finishFormat_aside (s : Session) (request : RequestId) (outcome : Outcome) :
    (s.finishFormat request outcome).1.checks = s.checks ∧
      (s.finishFormat request outcome).1.generations = s.generations ∧
      ∀ e ∈ (s.finishFormat request outcome).2, e.IsAside := by
  unfold finishFormat
  split
  · simp
  · exact ⟨rfl, rfl, fun e he => isAside_of_mem_formatAnswer he⟩

/-- A moment that changes the documents and then lints one of them. -/
theorem Moment.change_of_startCheck {m : Moment} {documents : Store} {u : Url}
    (hstep : m.before.step m.event =
      ({ m.before with documents := documents } : Session).startCheck u)
    (hclosings : ∀ v, m.closings v = []) (hended : m.ended = []) : m.Change := by
  rcases startCheck_cases { m.before with documents := documents } u with
    hidle | ⟨hpath, hnumber⟩ | ⟨path, entry, hpath, hentry, hstart⟩
  · rw [hidle] at hstep
    refine .quiet hclosings hended ?_ ?_ ?_ <;> simp [Moment.after, Moment.effects, hstep]
  · rw [hnumber] at hstep
    refine .number u hclosings hended hpath ?_ ?_ ?_ <;>
      simp [Moment.after, Moment.effects, hstep]
  · rw [hstart] at hstep
    refine .start ⟨m.before.generations.next, u, path, entry⟩ hclosings hended rfl hpath
      ?_ ?_ ?_ ?_ <;> simp [Moment.after, Moment.effects, hstep, hentry]

/-- Every moment makes one of these changes. -/
theorem Moment.change (m : Moment) : m.Change := by
  obtain ⟨s, e⟩ := m
  cases e with
  | opened u text language version =>
    exact change_of_startCheck (u := u) rfl (fun _ => rfl) rfl
  | changed u texts version =>
    exact .quiet (fun _ => rfl) rfl rfl rfl (by simp [Moment.effects, step])
  | saved u text? =>
    exact change_of_startCheck (u := u) rfl (fun _ => rfl) rfl
  | closed u => exact .closing u rfl rfl rfl rfl
  | checked generation outcome =>
    cases hfind : s.checks.find? fun run => run.generation = generation with
    | none =>
      have hstep : s.step (.checked generation outcome) = (s, []) := by
        simp [step, finishCheck, hfind]
      have hnone : ∀ run ∈ s.checks, ¬ run.generation = generation := by
        simpa using hfind
      refine .quiet (fun _ => rfl) ?_ ?_ ?_ ?_ <;>
        simp_all [Moment.after, Moment.effects, Moment.ended]
    | some run =>
      have hrun : run ∈ s.checks := List.mem_of_find?_eq_some hfind
      have hgeneration : run.generation = generation := by
        simpa using List.find?_some hfind
      subst hgeneration
      refine .finish run outcome rfl hrun ?_ ?_ ?_ <;>
        simp [Moment.after, Moment.effects, step, finishCheck, hfind, verdict]
  | formatRequested request u range? =>
    obtain ⟨hchecks, hgenerations, heffects⟩ := startFormat_aside s request u range?
    exact .quiet (fun _ => rfl) rfl hchecks hgenerations heffects
  | formatted request outcome =>
    obtain ⟨hchecks, hgenerations, heffects⟩ := finishFormat_aside s request outcome
    exact .quiet (fun _ => rfl) rfl hchecks hgenerations heffects
  | cancelled request =>
    exact .quiet (fun _ => rfl) rfl rfl rfl (by simp [Moment.effects, step])

/-- No step changes what the session was set up with. -/
theorem setUp_step (s : Session) (e : Event) :
    (s.step e).1.settings = s.settings ∧ (s.step e).1.root = s.root ∧
      (s.step e).1.home = s.home := by
  cases e with
  | opened u text language version =>
    have hcases :=
      startCheck_cases { s with documents := s.documents.opened u text language version } u
    rcases hcases with
      h | ⟨-, h⟩ | ⟨_, _, -, -, h⟩ <;> simp [step, h]
  | saved u text? =>
    rcases startCheck_cases { s with documents := s.documents.saved u text? } u with
      h | ⟨-, h⟩ | ⟨_, _, -, -, h⟩ <;> simp [step, h]
  | checked generation outcome =>
    simp only [step, finishCheck]
    split <;> exact ⟨rfl, rfl, rfl⟩
  | formatRequested request u range? =>
    simp only [step, startFormat]
    split
    · split
      · exact ⟨rfl, rfl, rfl⟩
      · split <;> exact ⟨rfl, rfl, rfl⟩
    · exact ⟨rfl, rfl, rfl⟩
  | formatted request outcome =>
    simp only [step, finishFormat]
    split <;> exact ⟨rfl, rfl, rfl⟩
  | changed u texts version => exact ⟨rfl, rfl, rfl⟩
  | closed u => exact ⟨rfl, rfl, rfl⟩
  | cancelled request => exact ⟨rfl, rfl, rfl⟩

/-- No step changes the directory that `~` stands for. -/
theorem home_step (s : Session) (e : Event) : (s.step e).1.home = s.home :=
  (setUp_step s e).2.2

end Session

end FishCheck
