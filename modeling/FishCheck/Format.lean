import FishCheck.Document.Basic
import FishCheck.Settings.Basic

/-!
# Formatting

Formatting hands a stretch of a document to the formatter's standard input and
replaces the stretch by what the formatter writes. The stretch is the requested
range, clamped to the document, or the whole document. Output counts only with exit
code zero; any other exit code means that the formatter rejects the text, which is
left alone.

Main results:

- Theorem `conclude_ok`: a successful run replaces exactly the formatted range.
- Theorem `conclude_rejected`: a rejection changes nothing and is no failure.
-/

namespace FishCheck

namespace Format

/-- A replacement of a range of a document. -/
structure Edit where
  range : Range
  newText : Text
deriving DecidableEq, Repr

/-- The range to format: the requested one inside the document, or all of it. -/
def target (d : Document) : Option Range → Range
  | some r => d.clampRange r
  | none => d.fullRange

/-- The formatter run for a range of a document. -/
def invocation (s : Settings) (cwd : Option Path) (d : Document) (range : Range) : Invocation where
  program := s.formatter
  args := s.formatterArgs
  stdin := some (d.slice range)
  cwd := cwd
  timeout := s.limit

/-- The edit that a formatter run asks for, none when it rejects the text. -/
def conclude (range : Range) (outcome : Outcome) : Except Failure (Option Edit) :=
  match outcome.succeed with
  | .ok c => .ok (some ⟨range, c.stdout⟩)
  | .error (.nonZeroExit _) => .ok none
  | .error f => .error f

/-- The document after an edit. -/
def Edit.applyTo (e : Edit) (d : Document) : Text :=
  d.text.take (d.indexAt e.range.start) ++ e.newText ++ d.text.drop (d.indexAt e.range.stop)

theorem conclude_ok (range : Range) (c : Completion) (h : c.exitCode = 0) :
    conclude range (.ok c) = .ok (some ⟨range, c.stdout⟩) := by
  simp [conclude, Outcome.succeed, Completion.succeed, Completion.succeeded, h]

theorem conclude_rejected (range : Range) (c : Completion) (h : c.exitCode ≠ 0) :
    conclude range (.ok c) = .ok none := by
  simp [conclude, Outcome.succeed, Completion.succeed, Completion.succeeded, h]

end Format

end FishCheck
