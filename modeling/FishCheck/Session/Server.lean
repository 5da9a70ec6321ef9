import FishCheck.Session.Activation
import FishCheck.Session.Message
import FishCheck.Session.Methods

/-!
# The life of a session

A session is set up, serves, is shut down and ends. This module decides, message by
message, what is allowed at each point of that life and hands what is allowed to the
session. Tool runs are started by a ticket and end at any later time; a run whose
request was taken back is awaited no more.
-/

namespace FishCheck

/-- How far a session has come. -/
inductive Phase
  | uninitialized
  /-- The checker is being asked for its version. -/
  | initializing (request : RequestId) (candidate : Activation.Candidate)
  | ready
  | shutDown
  | exited
deriving DecidableEq, Repr

/-- Whether notifications reach the editor in a phase. -/
def Phase.sends : Phase → Bool
  | .ready | .shutDown => true
  | _ => false

/-- What a tool run is for. -/
inductive Ticket
  | probe (request : RequestId)
  | check (generation : Nat)
  | format (request : RequestId)
deriving DecidableEq, Repr

/-- A session and the point of its life. -/
structure Server where
  phase : Phase := .uninitialized
  session : Session := {}
  /-- The settings file that the command line names. -/
  settingsFile : Option Text := none
deriving Repr

namespace Server

/-- What a server does in answer to a message or to the end of a run. -/
inductive Action
  | send (reply : Reply)
  | start (ticket : Ticket) (invocation : Invocation)
  /-- The message comes after the end. -/
  | refuse

/-- Answers a request with a refusal. -/
def refusal (id : RequestId) (r : Refusal) : Action := .send (.answer id (.error r))

/-- Answers a request with a result. -/
def result (id : RequestId) (j : Json) : Action := .send (.answer id (.ok j))

/-- Refuses a message if it is a request; notifications are dropped. -/
def turnDown (id? : Option RequestId) (r : Refusal) : List Action :=
  id?.toList.map fun id => refusal id r

/-! ## What a session asks for -/

/-- What the editor hears of an effect of the session. -/
def reply? (phase : Phase) : Session.Effect → Option Reply
  | .publish url diagnostics version? =>
    if phase.sends then some (Wire.publish url diagnostics version?) else none
  | .showError message => if phase.sends then some (Wire.showError message) else none
  | .answer request edits? => some (.answer request (.ok (Wire.editsResult edits?)))
  | _ => none

/-- The action for an effect of the session. -/
def deliver (phase : Phase) : Session.Effect → Option Action
  | .check generation invocation => some (.start (.check generation) invocation)
  | .format request invocation => some (.start (.format request) invocation)
  | e => (reply? phase e).map .send

/-- Lets the session take an event. -/
def take (s : Server) (e : Session.Event) : Server × List Action :=
  let (session, effects) := s.session.step e
  ({ s with session }, effects.filterMap (deliver s.phase))

/-! ## Requests under way -/

/-- The requests that have no answer yet. -/
def pending (s : Server) : List RequestId :=
  (match s.phase with
    | .initializing request _ => [request]
    | _ => []) ++ s.session.formats.map (·.request)

/-- Whether the end of a run still matters. -/
def awaits (s : Server) : Ticket → Bool
  | .probe request =>
    match s.phase with
    | .initializing r _ => r == request
    | _ => false
  | .check generation => s.session.checks.any fun run => run.generation == generation
  | .format request => s.session.formats.any fun run => run.request == request

/-- Takes a request back that is under way; its answer says so. -/
def cancel (s : Server) (id : RequestId) : Server × List Action :=
  match s.phase with
  | .initializing request _ =>
    if request = id then ({ s with phase := .uninitialized }, [refusal id .canceled]) else (s, [])
  | _ =>
    if id ∈ s.pending then
      let (s, actions) := s.take (.cancelled id)
      (s, actions ++ [refusal id .canceled])
    else (s, [])

/-- Takes all requests back that are under way. -/
def cancelAll (s : Server) : Server × List Action :=
  s.pending.foldl (fun (s, actions) id =>
    let (s, more) := s.cancel id
    (s, actions ++ more)) (s, [])

/-- Ends the session. A set-up under way fails by this and leaves the session as it was
before. -/
def exit (s : Server) : Server × List Action :=
  match s.phase with
  | .initializing _ _ => s.cancelAll
  | _ => { s with phase := .exited }.cancelAll

/-! ## Methods -/

/-- Starts the set-up of the session. -/
def startSetUp (files : FileView) (s : Server) (id : RequestId) (params? : Option Json) :
    Server × List Action :=
  match params?.bind Params.setUp? with
  | none => (s, [refusal id .invalidParams])
  | some p =>
    let candidate := Activation.candidate files s.settingsFile p
    ({ s with phase := .initializing id candidate },
      [.start (.probe id) (Activation.probe candidate)])

/-- The news that the session has started, with the version that the checker gave. -/
def started (s : Server) : Text :=
  match s.session.version with
  | some v => "fishlint started (" ++ v.toText ++ ")"
  | none => "fishlint started"

/-- The event that a served notification stands for. -/
def eventOf? (method : Text) (params : Json) : Option Session.Event :=
  if method = "textDocument/didOpen" then
    (Params.opened? params).map fun p => .opened p.url p.text p.language p.version
  else if method = "textDocument/didChange" then
    (Params.changed? params).map fun p => .changed p.url p.texts p.version
  else if method = "textDocument/didSave" then
    (Params.saved? params).map fun p => .saved p.1 p.2
  else if method = "textDocument/didClose" then (Params.closed? params).map .closed
  else none

/-- The event that a served request stands for. -/
def requestOf? (method : Text) (id : RequestId) (params : Json) : Option Session.Event :=
  if method = "textDocument/formatting" then
    (Params.formatting? params).map fun url => .formatRequested id url none
  else if method = "textDocument/rangeFormatting" then
    (Params.rangeFormatting? params).map fun p => .formatRequested id p.1 (some p.2)
  else none

/-- Whether a notification of the session's start has valid parameters. -/
def startedParamsHold : Option Json → Bool
  | some (.obj _) | some (.arr []) => true
  | _ => false

/-- Takes a notification while the session is ready. -/
def notified (s : Server) (method : Text) (params? : Option Json) : Server × List Action :=
  if method = "initialized" then
    (s, if startedParamsHold params? then [.send (Wire.log s.started)] else [])
  else match params?.bind (eventOf? method) with
    | some e => s.take e
    | none => (s, [])

/-- Takes a request while the session is ready. -/
def requested (s : Server) (method : Text) (id : RequestId) (params? : Option Json) :
    Server × List Action :=
  if id ∈ s.pending then (s, [refusal id .invalidRequest])
  else if (Methods.declined.lookup method).isSome then
    (s, [refusal id (if Methods.needsHold method params? then .methodNotFound else .invalidParams)])
  else match params?.bind (requestOf? method id) with
    | some e => s.take e
    | none => (s, [refusal id .invalidParams])

/-- Shuts the session down; its documents and runs stay as they are. -/
def shutdown (s : Server) (id? : Option RequestId) (params? : Option Json) :
    Server × List Action :=
  let after := { s with phase := .shutDown }
  match id? with
  | none => (after, [])
  | some id =>
    if id ∈ s.pending then (after, [refusal id .invalidRequest])
    else if params?.isSome then (after, [refusal id .invalidParams])
    else (after, [result id .null])

/-- The refusal of messages that a phase does not allow. -/
def untimely : Phase → Refusal
  | .uninitialized | .initializing _ _ => .notInitialized
  | _ => .invalidRequest

/-- Takes a message of a method that is served only while the session is ready. -/
def receiveReady (s : Server) (m : Message) (kind : MethodKind) : Server × List Action :=
  if s.phase ≠ .ready then (s, turnDown m.id? (untimely s.phase))
  else if m.method = "shutdown" then s.shutdown m.id? m.params?
  else match kind, m.id? with
    | .notification, none => s.notified m.method m.params?
    | .notification, some id => (s, [refusal id .invalidRequest])
    | .request, none => (s, [])
    | .request, some id => s.requested m.method id m.params?

/-- Takes a message that asks for a request to be taken back; it may come at any time. -/
def receiveCancel (s : Server) (m : Message) : Server × List Action :=
  match m.id? with
  | some id => (s, [refusal id .invalidRequest])
  | none =>
    match (m.params?.bind fun j => (j.named ["id"]).get? "id").bind Params.cancelled? with
    | some id => s.cancel id
    | none => (s, [])

/-- Takes a message that asks for the set-up. -/
def receiveSetUp (files : FileView) (s : Server) (m : Message) : Server × List Action :=
  if s.phase = .uninitialized then
    match m.id? with
    | some id => s.startSetUp files id m.params?
    | none => (s, [])
  else (s, turnDown m.id? .invalidRequest)

/-- Takes one message. -/
def receive (files : FileView) (s : Server) (m : Message) : Server × List Action :=
  if s.phase = .exited then (s, [.refuse])
  else if m.method = "exit" then s.exit
  else if m.method = "$/cancelRequest" then s.receiveCancel m
  else if m.method = "initialize" then s.receiveSetUp files m
  else match Methods.kind? m.method with
    | some kind => s.receiveReady m kind
    | none => (s, turnDown m.id? .methodNotFound)

/-! ## Ends of runs -/

/-- Ends the set-up. -/
def finishProbe (s : Server) (request : RequestId) (outcome : Outcome) : Server × List Reply :=
  match s.phase with
  | .initializing id candidate =>
    if id = request then
      match Activation.conclude s.session candidate outcome with
      | (session, .ok _) =>
        ({ s with phase := .ready, session },
          [.answer id (.ok (Wire.setUpResult session.settings.enableFormatting))])
      | (session, .error failure) =>
        ({ s with phase := .uninitialized, session }, [.answer id (.error (.cannotStart failure))])
    else (s, [])
  | _ => (s, [])

/-- Lets the session take the end of a run, which starts no other. -/
def finish (s : Server) (e : Session.Event) : Server × List Reply :=
  let (session, effects) := s.session.step e
  ({ s with session }, effects.filterMap (reply? s.phase))

/-- Takes the end of a run. -/
def complete (s : Server) (ticket : Ticket) (outcome : Outcome) : Server × List Reply :=
  match ticket with
  | .probe request => s.finishProbe request outcome
  | .check generation => s.finish (.checked generation outcome)
  | .format request => s.finish (.formatted request outcome)

end Server

end FishCheck
