import FishCheck.Session.Message
import FishCheck.Url.File

/-!
# Parameters of messages

What an editor's messages carry, read from JSON. Members that a message does not need
are ignored; a member that is missing or of the wrong kind makes the parameters
invalid as a whole. Where a message has a fixed list of members, the array of all of
them in order stands for the object.
-/

namespace FishCheck

namespace Params

/-! ## Parts -/

/-- A string that has to be there. -/
def readText? (j : Json) (name : Text) : Option Text := (j.get? name).bind Json.text?

/-- A URL. -/
def readUrl? : Json → Option Url
  | .str t => Url.parse? t
  | _ => none

/-- The URL that a text document is named by. -/
def documentUrl? (j : Json) : Option Url := do
  readUrl? (← ((← j.get? "textDocument").named ["uri"]).get? "uri")

/-- A number of 32 bits with a sign. -/
def int32? : Json → Option Int
  | .int i => if -2147483648 ≤ i ∧ i ≤ 2147483647 then some i else none
  | _ => none

/-- A part that may be absent or null. -/
def optional? (read : Json → Option α) (j : Json) (name : Text) : Option (Option α) :=
  match j.given? name with
  | none => some none
  | some v => (read v).map some

/-! ## Document notifications -/

/-- A document that is opened. -/
structure Opened where
  url : Url
  text : Text
  language : Text
  version : Int

/-- Reads the parameters of an opening. -/
def opened? (j : Json) : Option Opened := do
  let j := j.named ["textDocument"]
  let d := (← j.get? "textDocument").named ["uri", "languageId", "version", "text"]
  let url ← readUrl? (← d.get? "uri")
  let language ← readText? d "languageId"
  let version ← int32? (← d.get? "version")
  let text ← readText? d "text"
  pure ⟨url, text, language, version⟩

/-- A document that is changed, with each text that it is changed to. -/
structure Changed where
  url : Url
  texts : List Text
  version : Int

/-- Reads one change; its range says nothing here, but has to be one. -/
def change? (j : Json) : Option Text := do
  let j := j.named ["range", "rangeLength", "text"]
  let _ ← optional? Wire.readRange? j "range"
  let _ ← optional? (Json.natUpTo? Wire.maxUnsigned) j "rangeLength"
  readText? j "text"

/-- Reads the parameters of a change. -/
def changed? (j : Json) : Option Changed := do
  let j := j.named ["textDocument", "contentChanges"]
  let d := (← j.get? "textDocument").named ["uri", "version"]
  let url ← readUrl? (← d.get? "uri")
  let version ← int32? (← d.get? "version")
  let changes ← (← j.get? "contentChanges").items?
  pure ⟨url, ← changes.mapM change?, version⟩

/-- Reads the parameters of a closing. -/
def closed? (j : Json) : Option Url := documentUrl? (j.named ["textDocument"])

/-- Reads the parameters of a save: the document and perhaps its text. -/
def saved? (j : Json) : Option (Url × Option Text) := do
  let j := j.named ["textDocument", "text"]
  pure (← documentUrl? j, ← optional? Json.text? j "text")

/-! ## Formatting requests -/

/-- Whether a value may be a formatting option: a truth value, a number or a string. -/
def isOption (j : Json) : Bool := j.bool?.isSome || (int32? j).isSome || j.text?.isSome

/-- The formatting options that have a kind of their own. -/
def flagOptions : List Text := ["trimTrailingWhitespace", "insertFinalNewline", "trimFinalNewlines"]

/-- Whether one member of the formatting options is of the right kind. -/
def isOptionMember (name : Text) (value : Json) : Bool :=
  if name = "tabSize" then (value.natUpTo? Wire.maxUnsigned).isSome
  else if name = "insertSpaces" then value.bool?.isSome
  else if name ∈ flagOptions then
    match value with
    | .null | .bool _ => true
    | _ => false
  else isOption value

/-- Whether a value is a set of formatting options. -/
def areOptions (j : Json) : Bool :=
  match j with
  | .obj members =>
    (j.get? "tabSize").isSome && (j.get? "insertSpaces").isSome &&
      members.all fun m => isOptionMember m.1 m.2
  | _ => false

/-- Whether a value may name a progress report. -/
def isToken (j : Json) : Bool := j.text?.isSome || (int32? j).isSome

/-- Reads the parameters that both formatting requests have: the document. -/
def formatting? (j : Json) : Option Url := do
  let url ← documentUrl? j
  let options ← j.get? "options"
  let _ ← optional? (fun t => if isToken t then some () else none) j "workDoneToken"
  if areOptions options then some url else none

/-- Reads the parameters of a request to format a range. -/
def rangeFormatting? (j : Json) : Option (Url × Range) := do
  let url ← formatting? j
  pure (url, ← Wire.readRange? (← j.get? "range"))

/-- Reads the identifier of the request that is taken back: a number of 32 bits or a
string. -/
def cancelled? (j : Json) : Option RequestId :=
  match j with
  | .str t => some (.text t)
  | _ => (int32? j).map .number

/-! ## Setting up -/

/-- What an editor says when it starts a session. -/
structure SetUp where
  rootUrl : Option Url
  folders : Option (List Url)
  options : Option Json

/-- Whether a value is one of the levels of tracing. -/
def isTraceLevel (j : Json) : Bool :=
  match j with
  | .str t => t == "off" || t == "messages" || t == "verbose"
  | _ => false

/-- Reads a workspace folder. -/
def folder? (j : Json) : Option Url := do
  let j := j.named ["uri", "name"]
  let url ← readUrl? (← j.get? "uri")
  let _ ← readText? j "name"
  pure url

/-- Reads the workspace folders. -/
def folders? (j : Json) : Option (List Url) := j.items?.bind fun items => items.mapM folder?

/-- Reads the name and version that an editor gives itself. -/
def clientInfo? (j : Json) : Option Unit := do
  let j := j.named ["name", "version"]
  let _ ← readText? j "name"
  let _ ← optional? Json.text? j "version"
  pure ()

/-- Whether a value is an object. -/
def isObject : Json → Bool
  | .obj _ => true
  | _ => false

/-- The members of the parameters of a session's start, in order. -/
def setUpMembers : List String :=
  ["processId", "rootPath", "rootUri", "initializationOptions", "capabilities", "trace",
    "workspaceFolders", "clientInfo", "locale"]

/-- The groups of what an editor can do. -/
def capabilityGroups : List Text := ["workspace", "textDocument", "window", "general"]

/-- Whether a value says what an editor can do. -/
def areCapabilities (j : Json) : Bool :=
  isObject j && capabilityGroups.all fun name => (j.given? name).all isObject

/-- Reads the parameters of a session's start. -/
def setUp? (j : Json) : Option SetUp := do
  let j := j.named setUpMembers
  let _ ← optional? (Json.natUpTo? Wire.maxUnsigned) j "processId"
  let _ ← optional? Json.text? j "rootPath"
  let rootUrl ← optional? readUrl? j "rootUri"
  let _ ← (j.get? "capabilities").filter areCapabilities
  let _ ← optional? (fun t => if isTraceLevel t then some () else none) j "trace"
  let folders ← optional? folders? j "workspaceFolders"
  let _ ← optional? clientInfo? j "clientInfo"
  let _ ← optional? Json.text? j "locale"
  pure ⟨rootUrl, folders, j.given? "initializationOptions"⟩

/-- The directory that a session works in: the root, or else the first folder, as far as
they are local. -/
def SetUp.root (p : SetUp) : Option Path :=
  (p.rootUrl.bind Url.toPath?) <|> ((p.folders.bind List.head?).bind Url.toPath?)

end Params

end FishCheck
