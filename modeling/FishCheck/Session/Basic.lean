import FishCheck.Format
import FishCheck.Lint
import FishCheck.Session.Generations
import FishCheck.Session.Store
import FishCheck.Version

/-!
# Editor sessions

A session serves one editor. It is a machine that takes one event at a time: what the
editor does to documents, the formatting it asks for, and the ends of tool runs, which
may come in any order. Opening and saving a document start a checker run on the text
of that moment; when the run ends it publishes its diagnostics only if no newer run of
the document was started and the document was not closed in between. Closing a
document clears its diagnostics.

Main results:

- Theorem `run_append`: a sequence of events can be cut anywhere.
-/

namespace FishCheck

/-- What names a request until it is answered. -/
inductive RequestId
  | number (n : Int)
  | text (t : Text)
  | absent
deriving DecidableEq, Repr

namespace Session

/-! ## State, events and effects -/

/-- A checker run under way. -/
structure CheckRun where
  generation : Nat
  url : Url
  path : Path
  /-- The document as it was when the run started. -/
  entry : Entry
deriving DecidableEq, Repr

/-- A formatter run under way. -/
structure FormatRun where
  request : RequestId
  /-- The document as it was when the run started. -/
  document : Document
  range : Range
deriving DecidableEq, Repr

/-- What happens in a session. -/
inductive Event
  | opened (url : Url) (text language : Text) (version : Int)
  | changed (url : Url) (texts : List Text) (version : Int)
  | saved (url : Url) (text? : Option Text)
  | closed (url : Url)
  /-- A checker run ends. -/
  | checked (generation : Nat) (outcome : Outcome)
  /-- The editor asks for formatting, of a range or of the whole document. -/
  | formatRequested (request : RequestId) (url : Url) (range? : Option Range)
  /-- A formatter run ends. -/
  | formatted (request : RequestId) (outcome : Outcome)
  /-- The editor takes a formatting request back. -/
  | cancelled (request : RequestId)
deriving Repr

/-- What a session does in answer. -/
inductive Effect
  | check (generation : Nat) (invocation : Invocation)
  | format (request : RequestId) (invocation : Invocation)
  /-- The diagnostics of a document replace those it had. -/
  | publish (url : Url) (diagnostics : List Diagnostic) (version? : Option Int)
  | showError (message : Text)
  /-- The edits that a formatting request asked for; none leave the text alone. -/
  | answer (request : RequestId) (edits? : Option (List Format.Edit))
deriving DecidableEq, Repr

end Session

/-- The state of a session. -/
structure Session where
  settings : Settings := {}
  /-- The directory in which the tools run. -/
  root : Option Path := none
  /-- The version that the checker gave when the session was set up. -/
  version : Option Version := none
  /-- The directory that `~` stands for. -/
  home : Option Path := none
  documents : Store := {}
  generations : Generations := {}
  checks : List Session.CheckRun := []
  formats : List Session.FormatRun := []
deriving Repr

namespace Session

/-! ## Linting -/

/-- The message when the checker could not be run. -/
def lintingUnavailable (f : Failure) : Text := "fishlint: linting unavailable: " ++ f.message

/-- Starts a checker run for a document that can be linted. The run takes its number and
its copy of the document together. -/
def startCheck (s : Session) (url : Url) : Session × List Effect :=
  if s.settings.enableLinting then
    match s.documents.get? url with
    | none => (s, [])
    | some e =>
      let request : Lint.Request := ⟨url, e.text, e.language, e.saved⟩
      if request.isEligible then
        let generation := s.generations.next
        let s := { s with generations := s.generations.start url }
        match request.target? with
        | none => (s, [])
        | some path =>
          ({ s with checks := s.checks ++ [⟨generation, url, path, e⟩] },
            [.check generation (Lint.invocation s.settings s.root path)])
      else (s, [])
  else (s, [])

/-- What a run that is still current publishes. -/
def verdict (s : Session) (run : CheckRun) (outcome : Outcome) : List Effect :=
  match Lint.conclude s.home run.entry.text run.path outcome with
  | .ok diagnostics => [.publish run.url diagnostics (some run.entry.version)]
  | .error f =>
    [.showError (lintingUnavailable f), .publish run.url [] (some run.entry.version)]

/-- Ends a checker run; an outdated run ends silently. -/
def finishCheck (s : Session) (generation : Nat) (outcome : Outcome) : Session × List Effect :=
  match s.checks.find? fun run => run.generation = generation with
  | none => (s, [])
  | some run =>
    let s := { s with checks := s.checks.filter fun r => r.generation ≠ generation }
    (s, if s.generations.isCurrent run.url generation then s.verdict run outcome else [])

/-! ## Formatting -/

/-- The message when the formatter could not be run. -/
def formattingUnavailable (f : Failure) : Text := "fishlint: formatting unavailable: " ++ f.message

/-- Starts a formatter run for an open fish document; there is nothing to do for others. -/
def startFormat (s : Session) (request : RequestId) (url : Url) (range? : Option Range) :
    Session × List Effect :=
  if s.settings.enableFormatting then
    match s.documents.get? url with
    | none => (s, [.answer request none])
    | some e =>
      if Lint.isFishDocument url e.language then
        let document : Document := ⟨e.text⟩
        let range := Format.target document range?
        ({ s with formats := s.formats ++ [⟨request, document, range⟩] },
          [.format request (Format.invocation s.settings s.root document range)])
      else (s, [.answer request none])
  else (s, [.answer request none])

/-- The edits of a formatter run: none at all when the text already is as it should be. -/
def editsOf (d : Document) (e : Format.Edit) : List Format.Edit :=
  if d.slice e.range = e.newText then [] else [e]

/-- What a formatter run answers. -/
def formatAnswer (run : FormatRun) (outcome : Outcome) : List Effect :=
  match Format.conclude run.range outcome with
  | .ok (some e) => [.answer run.request (some (editsOf run.document e))]
  | .ok none => [.answer run.request none]
  | .error f => [.showError (formattingUnavailable f), .answer run.request none]

/-- Ends a formatter run; one whose request was taken back ends silently. -/
def finishFormat (s : Session) (request : RequestId) (outcome : Outcome) : Session × List Effect :=
  match s.formats.find? fun run => run.request = request with
  | none => (s, [])
  | some run =>
    ({ s with formats := s.formats.filter fun r => r.request ≠ request }, formatAnswer run outcome)

/-! ## Steps and runs -/

/-- Takes one event. -/
def step (s : Session) : Event → Session × List Effect
  | .opened url text language version =>
    ({ s with documents := s.documents.opened url text language version }).startCheck url
  | .changed url texts version =>
    ({ s with documents := s.documents.changed url texts version }, [])
  | .saved url text? => ({ s with documents := s.documents.saved url text? }).startCheck url
  | .closed url =>
    ({ s with documents := s.documents.closed url, generations := s.generations.retire url },
      [.publish url [] none])
  | .checked generation outcome => s.finishCheck generation outcome
  | .formatRequested request url range? => s.startFormat request url range?
  | .formatted request outcome => s.finishFormat request outcome
  | .cancelled request =>
    ({ s with formats := s.formats.filter fun r => r.request ≠ request }, [])

/-- Takes events in order, collecting what the session does. -/
def run (s : Session) : List Event → Session × List Effect
  | [] => (s, [])
  | e :: es =>
    let (s, done) := s.step e
    let (s, rest) := s.run es
    (s, done ++ rest)

theorem run_append (s : Session) (es fs : List Event) :
    s.run (es ++ fs) =
      (((s.run es).1.run fs).1, (s.run es).2 ++ ((s.run es).1.run fs).2) := by
  induction es generalizing s with
  | nil => simp [run]
  | cons e es ih => simp [run, ih, List.append_assoc]

end Session

end FishCheck
