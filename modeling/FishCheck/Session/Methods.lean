import FishCheck.Session.Params

/-!
# Methods of the protocol

The methods that an editor may name. A session serves a few of them; of the others it
knows whether they are requests or notifications and what their parameters have to
hold, which decides how it turns them down.
-/

namespace FishCheck

/-- Whether a method wants an answer. -/
inductive MethodKind
  | request
  | notification
deriving DecidableEq, Repr

namespace Methods

/-- An entry of a list of methods. -/
def entry (name : String) (a : α) : Text × α := (name.toList, a)

/-- The methods that a session serves. -/
def served : List (Text × MethodKind) :=
  [entry "initialize" .request, entry "initialized" .notification, entry "shutdown" .request,
    entry "exit" .notification, entry "$/cancelRequest" .notification,
    entry "textDocument/didOpen" .notification, entry "textDocument/didChange" .notification,
    entry "textDocument/didSave" .notification, entry "textDocument/didClose" .notification,
    entry "textDocument/formatting" .request, entry "textDocument/rangeFormatting" .request]

/-- Members that the parameters of a method have to hold. -/
inductive Need
  | document
  | position
  | range
  | object (name : Text)
  | array (name : Text)
  | text (name : Text)
  | url (name : Text)
deriving Repr

/-- Whether parameters hold a member. -/
def Need.holds (j : Json) : Need → Bool
  | .document => (Params.documentUrl? j).isSome
  | .position => ((j.get? "position").bind Wire.readPosition?).isSome
  | .range => ((j.get? "range").bind Wire.readRange?).isSome
  | .object name => (j.get? name).any Params.isObject
  | .array name => ((j.get? name).bind Json.items?).isSome
  | .text name => (Params.readText? j name).isSome
  | .url name => ((j.get? name).bind Params.readUrl?).isSome

/-- The requests that a session knows and turns down, with what they need. -/
def declined : List (Text × List Need) :=
  [entry "textDocument/hover" [.document, .position],
    entry "textDocument/completion" [.document, .position],
    entry "textDocument/signatureHelp" [.document, .position],
    entry "textDocument/declaration" [.document, .position],
    entry "textDocument/definition" [.document, .position],
    entry "textDocument/typeDefinition" [.document, .position],
    entry "textDocument/implementation" [.document, .position],
    entry "textDocument/references" [.document, .position, .object "context"],
    entry "textDocument/documentHighlight" [.document, .position],
    entry "textDocument/documentSymbol" [.document],
    entry "textDocument/codeAction" [.document, .range, .object "context"],
    entry "textDocument/codeLens" [.document],
    entry "textDocument/documentLink" [.document],
    entry "textDocument/documentColor" [.document],
    entry "textDocument/colorPresentation" [.document, .object "color", .range],
    entry "textDocument/onTypeFormatting" [.document, .position, .text "ch", .object "options"],
    entry "textDocument/rename" [.document, .position, .text "newName"],
    entry "textDocument/prepareRename" [.document, .position],
    entry "textDocument/foldingRange" [.document],
    entry "textDocument/selectionRange" [.document, .array "positions"],
    entry "textDocument/linkedEditingRange" [.document, .position],
    entry "textDocument/prepareCallHierarchy" [.document, .position],
    entry "textDocument/prepareTypeHierarchy" [.document, .position],
    entry "textDocument/semanticTokens/full" [.document],
    entry "textDocument/semanticTokens/full/delta" [.document, .text "previousResultId"],
    entry "textDocument/semanticTokens/range" [.document, .range],
    entry "textDocument/inlineValue" [.document, .range, .object "context"],
    entry "textDocument/inlayHint" [.document, .range],
    entry "textDocument/moniker" [.document, .position],
    entry "textDocument/diagnostic" [.document],
    entry "textDocument/willSaveWaitUntil" [.document],
    entry "workspace/diagnostic" [.array "previousResultIds"],
    entry "workspace/symbol" [.text "query"],
    entry "workspace/executeCommand" [.text "command"],
    entry "workspace/willCreateFiles" [.array "files"],
    entry "workspace/willRenameFiles" [.array "files"],
    entry "workspace/willDeleteFiles" [.array "files"],
    entry "callHierarchy/incomingCalls" [.object "item"],
    entry "callHierarchy/outgoingCalls" [.object "item"],
    entry "typeHierarchy/supertypes" [.object "item"],
    entry "typeHierarchy/subtypes" [.object "item"],
    entry "completionItem/resolve" [.text "label"],
    entry "codeAction/resolve" [.text "title"],
    entry "codeLens/resolve" [.range],
    entry "documentLink/resolve" [.range],
    entry "inlayHint/resolve" [.position],
    entry "workspaceSymbol/resolve" [.text "name"]]

/-- The notifications that a session knows and does nothing about. -/
def ignored : List Text :=
  ["textDocument/willSave", "workspace/didChangeWorkspaceFolders",
    "workspace/didChangeConfiguration", "workspace/didChangeWatchedFiles",
    "workspace/didCreateFiles", "workspace/didRenameFiles", "workspace/didDeleteFiles"]

/-- What kind of method a name is, if it is known. -/
def kind? (method : Text) : Option MethodKind :=
  match served.lookup method with
  | some k => some k
  | none =>
    if (declined.lookup method).isSome then some .request
    else if ignored.contains method then some .notification
    else none

/-- Whether the parameters of a declined request hold what it needs. -/
def needsHold (method : Text) (params : Option Json) : Bool :=
  match params with
  | none => false
  | some j => ((declined.lookup method).getD []).all (Need.holds j)

end Methods

end FishCheck
