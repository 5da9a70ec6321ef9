import FishCheck.Complaint
import FishCheck.Document.Basic

/-!
# Diagnostics

A diagnostic shows one complaint in a document: it covers the whole line that the
complaint names, or the last line when the document is shorter than that.

Main results:

- Theorem `ofComplaint_message`: the message is the complaint's own.
-/

namespace FishCheck

/-- An error to show in a document. -/
structure Diagnostic where
  range : Range
  message : Text
deriving DecidableEq, Repr

namespace Diagnostic

/-- The name of the origin that every diagnostic carries. -/
def source : Text := "fish"

/-- The severity that every diagnostic carries: an error. -/
def severity : Nat := 1

/-- The diagnostic of a complaint: the whole line it names, or the last one. -/
def ofComplaint (c : Complaint) (d : Document) : Diagnostic :=
  let line := min (c.line - 1) d.lastLine
  ⟨⟨⟨line, 0⟩, ⟨line, d.lineLength line⟩⟩, c.message⟩

theorem ofComplaint_message (c : Complaint) (d : Document) :
    (ofComplaint c d).message = c.message := rfl

end Diagnostic

end FishCheck
