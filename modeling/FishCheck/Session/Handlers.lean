import FishCheck.Session.Basic

/-!
# Handlers at work

The server answers each notification of the editor with a handler of its own, and the
handlers of one session take turns step by step.  This module cuts the events of a session
into those steps: waiting for the documents, each use of the numbers, the checker run and
each message to the editor.  Handlers that read the documents share them; one that writes
has to find nobody reading, and has done its writing within the step.  Who waits longer does
not go first.  A handler that judges its checker run goes on reading until its last
message is out.

Requests for formatting only look the document up, in one step that changes nothing, so
they are left out, and so are the settings, which stay as they are while handlers work.

Main results:

- Theorem `step_cases`: a move brings in one handler, or takes one handler a step further.
- Theorem `run_invariant`: what every move keeps holds after every run.
-/

namespace FishCheck

namespace Session

/-! ## The steps of a handler -/

/-- What the editor does to an open document, or to one that it opens. -/
inductive Editing
  | opened (text language : Text) (version : Int)
  | changed (texts : List Text) (version : Int)
  | saved (text? : Option Text)
deriving DecidableEq, Repr

namespace Editing

/-- The event of a session that it is. -/
def event (u : Url) : Editing → Event
  | opened text language version => .opened u text language version
  | changed texts version => .changed u texts version
  | saved text? => .saved u text?

/-- The documents after it. -/
def applyTo (documents : Store) (u : Url) : Editing → Store
  | opened text language version => documents.opened u text language version
  | changed texts version => documents.changed u texts version
  | saved text? => documents.saved u text?

/-- Whether the document is linted then. -/
def lints : Editing → Bool
  | changed .. => false
  | _ => true

end Editing

/-- How far a handler has got, and what it keeps to go on with. -/
inductive Stage
  /-- It waits to write what the editor did. -/
  | storing (editing : Editing)
  /-- It waits to read the document that is to be linted. -/
  | finding
  /-- It reads, and takes a number for its run. -/
  | numbering (entry : Entry)
  /-- Its checker runs. -/
  | checking (run : CheckRun)
  /-- It waits to read again, and has something to say if its number is current. -/
  | answering (generation : Nat) (effects : List Effect)
  /-- It reads, and looks whether its number is current. -/
  | judging (generation : Nat) (effects : List Effect)
  /-- It reads, and sends its messages. -/
  | sending (effect : Effect) (effects : List Effect)
  /-- It waits to remove a document that the editor closed. -/
  | removing
  /-- It is about to retire the number of the document. -/
  | retiring
  /-- It is about to clear the diagnostics of the document. -/
  | clearing
  | done
deriving DecidableEq, Repr

/-- What a handler does in one step. -/
inductive Act
  | stored (editing : Editing)
  | found (document? : Option Entry)
  | numbered (generation : Nat)
  | returned
  | locked
  | judged (current : Bool)
  | sent (effect : Effect)
  | removed
  | retired
deriving DecidableEq, Repr

/-- The message that an act is. -/
def Act.message? : Act → Option Effect
  | sent effect => some effect
  | _ => none

namespace Stage

/-- The first stage of a handler for an edit; a change without texts is over at once. -/
def ofEditing : Editing → Stage
  | .changed [] _ => done
  | editing => storing editing

/-- The stage in which messages are sent one by one. -/
def ofEffects : List Effect → Stage
  | [] => done
  | effect :: effects => sending effect effects

/-- Whether a handler reads the documents, and no other one may write them. -/
def reads : Stage → Bool
  | numbering _ | judging .. | sending .. => true
  | _ => false

/-- The next step of a handler: what it does, the session after that and the next stage.
Nobody writes the documents while somebody reads them.  The outcome is the one of the
checker, where the step is the end of its run. -/
def next? (s : Session) (u : Url) (reading : Bool) (outcome : Outcome) :
    Stage → Option (Act × Session × Stage)
  | storing editing =>
    if reading then none
    else some (.stored editing, { s with documents := editing.applyTo s.documents u },
      if editing.lints && s.settings.enableLinting then finding else done)
  | finding =>
    match s.documents.get? u with
    | none => some (.found none, s, done)
    | some e =>
      let request : Lint.Request := ⟨u, e.text, e.language, e.saved⟩
      some (.found (some e), s, if request.isEligible then numbering e else done)
  | numbering e =>
    let generation := s.generations.next
    let request : Lint.Request := ⟨u, e.text, e.language, e.saved⟩
    match request.target? with
    | none =>
      some (.numbered generation, { s with generations := s.generations.start u },
        answering generation [])
    | some path =>
      let run : CheckRun := ⟨generation, u, path, e⟩
      some (.numbered generation,
        { s with generations := s.generations.start u, checks := s.checks ++ [run] }, checking run)
  | checking run =>
    some (.returned, { s with checks := s.checks.filter fun r => r.generation ≠ run.generation },
      answering run.generation (s.verdict run outcome))
  | answering generation effects => some (.locked, s, judging generation effects)
  | judging generation effects =>
    let current := s.generations.isCurrent u generation
    some (.judged current, s, if current then ofEffects effects else done)
  | sending effect effects => some (.sent effect, s, ofEffects effects)
  | removing =>
    if reading then none
    else some (.removed, { s with documents := s.documents.closed u }, retiring)
  | retiring => some (.retired, { s with generations := s.generations.retire u }, clearing)
  | clearing => some (.sent (.publish u [] none), s, done)
  | done => none

end Stage

/-- A handler: the document that it is about and its stage. -/
structure Task where
  url : Url
  stage : Stage
deriving DecidableEq, Repr

/-- One step in the log: the handler that took it, by its place, its document and what it
did. -/
structure Deed where
  task : Nat
  url : Url
  act : Act
deriving DecidableEq, Repr

/-- What goes on next. -/
inductive Move
  /-- The editor does something to a document, which brings in a handler. -/
  | edit (url : Url) (editing : Editing)
  /-- The editor closes a document, which brings in a handler. -/
  | close (url : Url)
  /-- A handler takes its next step. -/
  | go (task : Nat) (outcome : Outcome)
deriving Repr

end Session

/-- A session, the handlers at work in it, and all that they did so far. -/
structure Handlers where
  session : Session
  tasks : List Session.Task := []
  log : List Session.Deed := []
deriving Repr

namespace Handlers

open Session

/-! ## Moves -/

/-- The handlers of a server that was just set up. -/
def justSetUp (settings : Settings) (root home : Option Path) : Handlers where
  session := { settings, root, home }

/-- Whether some handler reads the documents. -/
def reading (h : Handlers) : Bool := h.tasks.any fun t => t.stage.reads

/-- Brings in a handler. -/
def enter (h : Handlers) (u : Url) (stage : Stage) : Handlers :=
  { h with tasks := h.tasks ++ [⟨u, stage⟩] }

/-- Enters a step of a handler: what it did, the session after it and its next stage. -/
def afterStep (h : Handlers) (i : Nat) (t : Task) (act : Act) (session : Session)
    (stage : Stage) : Handlers :=
  ⟨session, h.tasks.set i ⟨t.url, stage⟩, h.log ++ [⟨i, t.url, act⟩]⟩

/-- Makes one move, if it can be made. -/
def step (h : Handlers) : Move → Option Handlers
  | .edit u editing => some (h.enter u (.ofEditing editing))
  | .close u => some (h.enter u .removing)
  | .go i outcome =>
    h.tasks[i]?.bind fun t =>
      (t.stage.next? h.session t.url h.reading outcome).map fun (act, session, stage) =>
        h.afterStep i t act session stage

/-- Makes moves in order, if they can be made. -/
def run (h : Handlers) : List Move → Option Handlers
  | [] => some h
  | m :: ms => (h.step m).bind fun h => h.run ms

/-- The messages to the editor, in the order in which they were sent. -/
def sent (h : Handlers) : List Effect := h.log.filterMap fun d => d.act.message?

/-! ## First facts -/

/-- A move brings in one handler, or takes one handler a step further. -/
theorem step_cases {h after : Handlers} {m : Move} (hstep : h.step m = some after) :
    (∃ u stage, (stage = .removing ∨ ∃ editing, stage = .ofEditing editing) ∧
      after = h.enter u stage) ∨
    (∃ i outcome t act session stage, m = .go i outcome ∧ h.tasks[i]? = some t ∧
      t.stage.next? h.session t.url h.reading outcome = some (act, session, stage) ∧
      after = h.afterStep i t act session stage) := by
  cases m with
  | edit u editing => exact .inl ⟨u, _, .inr ⟨editing, rfl⟩, (Option.some.inj hstep).symm⟩
  | close u => exact .inl ⟨u, _, .inl rfl, (Option.some.inj hstep).symm⟩
  | go i outcome =>
    obtain ⟨t, ht, hnext⟩ := Option.bind_eq_some_iff.1 hstep
    obtain ⟨⟨act, session, stage⟩, hnext, hafter⟩ := Option.map_eq_some_iff.1 hnext
    exact .inr ⟨i, outcome, t, act, session, stage, rfl, ht, hnext, hafter.symm⟩

/-- What every move keeps holds after every run. -/
theorem run_invariant {P : Handlers → Prop} {h : Handlers} (hstart : P h)
    (hkeep : ∀ before m after, P before → before.step m = some after → P after)
    {ms : List Move} {after : Handlers} (hrun : h.run ms = some after) : P after := by
  induction ms generalizing h with
  | nil =>
    obtain rfl := Option.some.inj hrun
    exact hstart
  | cons m ms ih =>
    obtain ⟨next, hnext, hrest⟩ := Option.bind_eq_some_iff.1 hrun
    exact ih (hkeep h m next hstart hnext) hrest

end Handlers

end FishCheck
