import FishCheck.Session.Server

/-!
# Rehearsed sessions

A rehearsal plays an editor against a session, step by step. The tools are played too:
a run either ends at once or waits at a gate until the script opens it. The steps look
at the session from outside, through its answers, its notifications and the runs it
asks for.
-/

namespace FishCheck

/-- How a run is going to end, and the gate it waits at before that. -/
structure Response where
  outcome : Outcome
  gate? : Option Text := none

/-- Where a session is rehearsed: what it sees of files and how its runs end, both of
which depend on a state. -/
structure Scenery (ρ : Type) where
  files : ρ → FileView
  run : ρ → Invocation → ρ × Response

/-- A run that waits at a gate. -/
structure Waiting where
  gate : Text
  ticket : Ticket
  outcome : Outcome

/-- The state of a rehearsal. -/
structure Rehearsal (ρ : Type) where
  server : Server
  scene : ρ
  /-- Runs that wait, the longest first. -/
  waiting : List Waiting := []
  /-- How often each gate was opened with nobody waiting. -/
  permits : Table Text Nat := {}
  /-- How many requests were sent. -/
  requests : Nat := 0
  /-- Answers that came in. -/
  answers : Table RequestId (Except Refusal Json) := {}
  /-- Calls that go on in the background: their requests, and none for notifications. -/
  detached : Table Text (Option RequestId) := {}
  /-- Whether the session refused the last message. -/
  refused : Bool := false

namespace Rehearsal

/-! ## Steps -/

/-- A step of the script. -/
inductive Step (ρ : Type)
  | request (method : Text) (params? : Option Json) (detach? : Option Text)
  | notify (method : Text) (params? : Option Json) (detach? : Option Text)
  | join (name : Text)
  | release (gate : Text)
  | document (url : Url)
  | settings
  | version
  /-- The scene changes. -/
  | alter (change : ρ → ρ)

/-- What a step finds out. -/
inductive Finding
  | nothing
  | answered (result : Except Refusal Json)
  | exited
  | document (found? : Option Entry)
  | settings (s : Settings)
  | version (v? : Option Version)

/-- What is seen during a step. -/
structure Report where
  finding : Finding := .nothing
  sent : List (Text × Json) := []
  invoked : List Invocation := []

variable {ρ : Type}

/-! ## The course of things -/

/-- Takes what the session sends: answers are kept, notifications are seen. -/
def hear (r : Rehearsal ρ × Report) : Reply → Rehearsal ρ × Report
  | .answer request result => ({ r.1 with answers := r.1.answers.set request result }, r.2)
  | .notify method params => (r.1, { r.2 with sent := r.2.sent ++ [(method, params)] })

/-- Lets a run end. -/
def conclude (r : Rehearsal ρ × Report) (ticket : Ticket) (outcome : Outcome) :
    Rehearsal ρ × Report :=
  let (server, replies) := r.1.server.complete ticket outcome
  replies.foldl hear ({ r.1 with server }, r.2)

/-- Lets a run wait at a gate, unless the gate was opened before. -/
def await (r : Rehearsal ρ × Report) (gate : Text) (ticket : Ticket) (outcome : Outcome) :
    Rehearsal ρ × Report :=
  let permits := (r.1.permits.get? gate).getD 0
  if 0 < permits then
    conclude ({ r.1 with permits := r.1.permits.set gate (permits - 1) }, r.2) ticket outcome
  else ({ r.1 with waiting := r.1.waiting ++ [⟨gate, ticket, outcome⟩] }, r.2)

/-- Carries an action out. -/
def performOne (scenery : Scenery ρ) (r : Rehearsal ρ × Report) : Server.Action →
    Rehearsal ρ × Report
  | .send reply => hear r reply
  | .start ticket invocation =>
    let (scene, response) := scenery.run r.1.scene invocation
    let r := ({ r.1 with scene }, { r.2 with invoked := r.2.invoked ++ [invocation] })
    match response.gate? with
    | none => conclude r ticket response.outcome
    | some gate => await r gate ticket response.outcome
  | .refuse => ({ r.1 with refused := true }, r.2)

/-- Carries actions out in order. -/
def perform (scenery : Scenery ρ) (r : Rehearsal ρ × Report) (actions : List Server.Action) :
    Rehearsal ρ × Report :=
  actions.foldl (performOne scenery) r

/-- Gives up runs that nobody awaits any more. -/
def dropUnawaited (r : Rehearsal ρ) : Rehearsal ρ :=
  { r with waiting := r.waiting.filter fun w => r.server.awaits w.ticket }

/-- Sends a message to the session. -/
def send (scenery : Scenery ρ) (r : Rehearsal ρ) (m : Message) : Rehearsal ρ × Report :=
  let (server, actions) := r.server.receive (scenery.files r.scene) m
  let (r, report) := perform scenery ({ r with server, refused := false }, {}) actions
  (r.dropUnawaited, report)

/-- The answer to a call, if it came. -/
def answerTo (r : Rehearsal ρ) (request? : Option RequestId) : Finding :=
  match request?.bind r.answers.get? with
  | some result => .answered result
  | none => .nothing

/-- Makes a call: it is waited for, or goes on in the background. -/
def call (scenery : Scenery ρ) (r : Rehearsal ρ) (m : Message) (detach? : Option Text) :
    Rehearsal ρ × Report :=
  let (r, report) := r.send scenery m
  match detach? with
  | some name => ({ r with detached := r.detached.set name m.id? }, report)
  | none =>
    (r, { report with finding := if r.refused then .exited else r.answerTo m.id? })

/-- Opens a gate once: for the run that waits longest, or else for a later one. -/
def openGate (r : Rehearsal ρ) (gate : Text) : Rehearsal ρ × Report :=
  match r.waiting.span fun w => w.gate ≠ gate with
  | (before, w :: after) => conclude ({ r with waiting := before ++ after }, {}) w.ticket w.outcome
  | (_, []) =>
    ({ r with permits := r.permits.set gate ((r.permits.get? gate).getD 0 + 1) }, {})

/-- Plays one step. -/
def step (scenery : Scenery ρ) (r : Rehearsal ρ) : Step ρ → Rehearsal ρ × Report
  | .request method params? detach? =>
    let r := { r with requests := r.requests + 1 }
    r.call scenery ⟨method, some (.number r.requests), params?⟩ detach?
  | .notify method params? detach? => r.call scenery ⟨method, none, params?⟩ detach?
  | .join name => (r, { finding := r.answerTo ((r.detached.get? name).bind id) })
  | .release gate => r.openGate gate
  | .document url => (r, { finding := .document (r.server.session.documents.get? url) })
  | .settings => (r, { finding := .settings r.server.session.settings })
  | .version => (r, { finding := .version r.server.session.version })
  | .alter change => ({ r with scene := change r.scene }, {})

/-- Plays a script and reports on each of its steps. -/
def play (scenery : Scenery ρ) (r : Rehearsal ρ) : List (Step ρ) → List Report
  | [] => []
  | s :: ss =>
    let (r, report) := r.step scenery s
    report :: play scenery r ss

/-! ## Prepared runs -/

/-- The next of the prepared responses; when there are none left, runs are cut off. -/
def nextResponse (responses : List Response) (i : Invocation) : List Response × Response :=
  match responses with
  | r :: rest => (rest, r)
  | [] => ([], { outcome := .error (.terminated i.program) })

end Rehearsal

end FishCheck
