import FishCheck.Json.Basic
import FishCheck.Diagnostic
import FishCheck.Format

/-!
# Values on the wire

How positions, ranges, diagnostics and edits are written for an editor, and how
positions and ranges that an editor sends are read. An editor's numbers have 32 bits;
larger ones are refused.

Main results:

- Theorem `readRange_writeRange`: reading a written range of small numbers gives it
  back.
-/

namespace FishCheck

namespace Wire

/-- The largest line or character that an editor can send. -/
def maxUnsigned : Nat := 4294967295

/-- A position for an editor. -/
def writePosition (p : Position) : Json :=
  .record [("line", .ofNat p.line), ("character", .ofNat p.character)]

/-- A range for an editor. -/
def writeRange (r : Range) : Json :=
  .record [("start", writePosition r.start), ("end", writePosition r.stop)]

/-- A diagnostic for an editor. -/
def writeDiagnostic (d : Diagnostic) : Json :=
  .record [("range", writeRange d.range), ("severity", .ofNat Diagnostic.severity),
    ("source", .str Diagnostic.source), ("message", .str d.message)]

/-- An edit for an editor. -/
def writeEdit (e : Format.Edit) : Json :=
  .record [("range", writeRange e.range), ("newText", .str e.newText)]

/-- Reads a position. -/
def readPosition? (j : Json) : Option Position := do
  let j := j.named ["line", "character"]
  let line ← (← j.get? "line").natUpTo? maxUnsigned
  let character ← (← j.get? "character").natUpTo? maxUnsigned
  pure ⟨line, character⟩

/-- Reads a range. -/
def readRange? (j : Json) : Option Range := do
  let j := j.named ["start", "end"]
  let start ← readPosition? (← j.get? "start")
  let stop ← readPosition? (← j.get? "end")
  pure ⟨start, stop⟩

theorem readPosition_writePosition {p : Position} (hl : p.line ≤ maxUnsigned)
    (hc : p.character ≤ maxUnsigned) : readPosition? (writePosition p) = some p := by
  simp [readPosition?, writePosition, Json.record, Json.named, Json.get?, Json.lookup, Json.ofNat,
    Json.natUpTo?, hl, hc]

/-- Reading a written range gives it back when its numbers have 32 bits. -/
theorem readRange_writeRange {r : Range} (h1 : r.start.line ≤ maxUnsigned)
    (h2 : r.start.character ≤ maxUnsigned) (h3 : r.stop.line ≤ maxUnsigned)
    (h4 : r.stop.character ≤ maxUnsigned) : readRange? (writeRange r) = some r := by
  have hs := readPosition_writePosition h1 h2
  have he := readPosition_writePosition h3 h4
  simp [readRange?, writeRange, Json.record, Json.named, Json.get?, Json.lookup, hs, he]

end Wire

end FishCheck
