import FishCheck.Session.Basic
import FishCheck.Session.Wire
import FishCheck.Url.Basic

/-!
# Messages

What goes over the wire between an editor and a session. A message of the editor names
a method and is a request if it has an identifier; a session answers requests, with a
result or an error, and sends notifications of its own.

Main results:

- Theorem `readId_writeId`: reading a written identifier gives it back.
-/

namespace FishCheck

/-- A message of an editor; without an identifier it is a notification. -/
structure Message where
  method : Text
  id? : Option RequestId
  params? : Option Json

/-- Why a request gets no result. -/
inductive Refusal
  /-- The message is not written in JSON. -/
  | parseError
  /-- The session is not set up yet. -/
  | notInitialized
  /-- The request makes no sense at this time. -/
  | invalidRequest
  | methodNotFound
  | invalidParams
  /-- The editor took the request back. -/
  | canceled
  /-- The set-up failed. -/
  | cannotStart (failure : Version.ProbeFailure)
deriving DecidableEq, Repr

namespace Refusal

/-- The number that stands for a refusal. -/
def code : Refusal → Int
  | .parseError => -32700
  | .notInitialized => -32002
  | .invalidRequest => -32600
  | .methodNotFound => -32601
  | .invalidParams => -32602
  | .canceled => -32800
  | .cannotStart _ => -32603

/-- The wording of a refusal. -/
def message : Refusal → Text
  | .parseError => "Parse error"
  | .notInitialized => "Server not initialized"
  | .invalidRequest => "Invalid request"
  | .methodNotFound => "Method not found"
  | .invalidParams => "Invalid params"
  | .canceled => "Canceled"
  | .cannotStart failure => "fishlint cannot start: " ++ failure.message

end Refusal

/-- What a session sends to its editor. -/
inductive Reply
  | answer (request : RequestId) (result : Except Refusal Json)
  | notify (method : Text) (params : Json)

namespace RequestId

/-- Reads an identifier. -/
def read? : Json → Option RequestId
  | .int i => some (.number i)
  | .str t => some (.text t)
  | .null => some .absent
  | _ => none

/-- Writes an identifier. -/
def write : RequestId → Json
  | .number i => .int i
  | .text t => .str t
  | .absent => .null

theorem readId_writeId (id : RequestId) : read? id.write = some id := by
  cases id <;> rfl

end RequestId

namespace Wire

/-! ## Notifications of a session -/

/-- The diagnostics of a document, with the version they hold for. -/
def diagnosticsParams (url : Url) (diagnostics : List Diagnostic) (version? : Option Int) : Json :=
  .record <|
    [("uri", .str url.toText), ("diagnostics", .arr (diagnostics.map writeDiagnostic))] ++
      version?.toList.map fun v => ("version", .int v)

/-- A message for the user: errors are of type 1, news of type 3. -/
def messageParams (type : Nat) (message : Text) : Json :=
  .record [("type", .ofNat type), ("message", .str message)]

/-- Replaces the diagnostics of a document. -/
def publish (url : Url) (diagnostics : List Diagnostic) (version? : Option Int) : Reply :=
  .notify "textDocument/publishDiagnostics" (diagnosticsParams url diagnostics version?)

/-- Shows an error to the user. -/
def showError (message : Text) : Reply := .notify "window/showMessage" (messageParams 1 message)

/-- Puts news into the editor's log. -/
def log (message : Text) : Reply := .notify "window/logMessage" (messageParams 3 message)

/-! ## Answers of a session -/

/-- The name and version that a session gives itself. -/
def serverName : Text := "fishlint"

/-- The version of this program. -/
def serverVersion : Text := "0.1.0"

/-- What a session can do: it wants whole texts and saves without them, and formats if
that is enabled. -/
def setUpResult (enableFormatting : Bool) : Json :=
  let sync := Json.record [("openClose", .bool true), ("change", .ofNat 1),
    ("save", .record [("includeText", .bool false)])]
  .record [
    ("capabilities", .record [("textDocumentSync", sync),
      ("documentFormattingProvider", .bool enableFormatting),
      ("documentRangeFormattingProvider", .bool enableFormatting)]),
    ("serverInfo", .record [("name", .str serverName), ("version", .str serverVersion)])]

/-- The edits of a formatting request, null when there are none to speak of. -/
def editsResult (edits? : Option (List Format.Edit)) : Json :=
  .ofOption (fun edits => .arr (edits.map writeEdit)) edits?

end Wire

end FishCheck
