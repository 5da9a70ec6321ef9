import FishCheck.Command.Basic
import FishCheck.Session.Framing
import FishCheck.Session.Server

/-!
# The server command

A session can be served over standard input and output. The messages that come in are
all taken before the first tool run ends; a tool run is awaited after that. Requests
are answered in the order in which they came, those that had to wait last. Once the
input has ended, only answers go out.
-/

namespace FishCheck

namespace Serve

/-- The one run that can be awaited while messages come in. -/
structure Awaited where
  /-- The number of the message that asked for it. -/
  message : Nat
  ticket : Ticket
  invocation : Invocation

/-- The state of serving. -/
structure State where
  server : Server
  /-- How many messages were taken. -/
  taken : Nat := 0
  /-- The answers so far with the numbers of the messages they are for. -/
  answers : List (Nat × Reply) := []
  awaited : Option Awaited := none
  /-- Whether the session takes no more messages. -/
  ended : Bool := false

/-- Whether an answer takes back the run that is awaited. -/
def takesBack (a : Awaited) : Reply → Bool
  | .answer request (.error .canceled) => a.ticket = .probe request
  | _ => false

/-- Carries out an action for the message at hand. -/
def act (s : State) : Server.Action → State
  | .send (.answer request result) =>
    let reply := Reply.answer request result
    match s.awaited.filter fun a => takesBack a reply with
    | some a => { s with answers := s.answers ++ [(a.message, reply)], awaited := none }
    | none => { s with answers := s.answers ++ [(s.taken, reply)] }
  | .send (.notify _ _) => s
  | .start ticket invocation => { s with awaited := some ⟨s.taken, ticket, invocation⟩ }
  | .refuse => { s with ended := true }

/-- Takes the body of a frame. -/
def take (files : FileView) (s : State) (body : Framing.Body) : State :=
  if s.ended then s
  else
    let s := match body with
      | .message m =>
        let (server, actions) := s.server.receive files m
        actions.foldl act { s with server }
      | .answer => s
      | .malformed r =>
        { s with answers := s.answers ++ [(s.taken, Reply.answer .absent (.error r))] }
    { s with taken := s.taken + 1 }

/-- The answers in the order of the messages they are for. -/
def ordered (s : State) : List Reply :=
  (s.answers.mergeSort fun a b => a.1 ≤ b.1).map (·.2)

/-- Lets the run end that is awaited, and gives the answers to it. -/
def finish (exec : Executor) (h : Host) (s : State) : Host × List Reply :=
  match s.awaited with
  | none => (h, [])
  | some a =>
    let (h, result) := exec h a.invocation
    let (_, replies) := s.server.complete a.ticket (result.map Output.decode)
    (h, replies)

/-- Serves a session on the bodies that come in. -/
def serve (exec : Executor) (h : Host) (settingsFile : Option Text) (bodies : List Framing.Body) :
    Host × List Reply :=
  let server : Server := { session := { home := Command.homeOf h }, settingsFile }
  let s := bodies.foldl (take h.view) { server }
  let (h, last) := finish exec h s
  (h, ordered s ++ last)

/-- Serves a session on standard input and output. -/
def run (exec : Executor) (p : Palette) (h : Host) (settingsFile : Option Text)
    (port : Option Nat) (stdin : Bytes) : Host × Report :=
  match settingsFile.filter fun f => !h.view.present (Path.ofText f) with
  | some f => (h, Command.failed p ("Configuration file not found: " ++ f))
  | none =>
    match port with
    | some n =>
      (h, { exitCode := Command.toolError
            stderr := Command.line ("Failed to start LSP server on port " ++ Text.decimal n ++
              ": no network here") })
    | none =>
      let (h, replies) := serve exec h settingsFile ((Framing.bodies stdin).map Framing.readBody)
      (h, { exitCode := Command.success
            stdout := replies.flatMap fun r => Framing.frame (Framing.writeReply r).write })

end Serve

end FishCheck
