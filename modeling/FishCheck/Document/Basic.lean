import FishCheck.Text.Utf8
import FishCheck.Text.Utf16
import FishCheck.Document.Position

/-!
# Documents

A document is a text seen as lines. A line feed ends a line, and a carriage return
right before it belongs to the terminator; a carriage return that no line feed
follows is content. Positions count UTF-16 code units on a line, while the text is
cut at characters and files count bytes, so this module moves between the three and
keeps every position inside the document.

Main results:

- Theorem `lineCount_eq`: there is one line more than there are line feeds.
- Theorem `lineCount_pos`: every document has a line, be it empty.
- Theorem `clamp_of_lastLine_lt`: a line past the end moves to the end of the text.
-/

namespace FishCheck

/-- A document's text, to be addressed by positions. -/
structure Document where
  text : Text
deriving DecidableEq, Repr

namespace Document

/-! ## Lines -/

/-- The stretches of the document between its line feeds. -/
def pieces (d : Document) : List Text := Text.pieces d.text

/-- The number of lines; a line feed at the end starts a last, empty line. -/
def lineCount (d : Document) : Nat := d.pieces.length

/-- The number of the last line. -/
def lastLine (d : Document) : Nat := d.lineCount - 1

/-- The content of a line without its terminator; the last line has none. -/
def line? (d : Document) (n : Nat) : Option Text :=
  d.pieces[n]?.map fun piece => if n + 1 < d.lineCount then Text.dropReturn piece else piece

/-- The length of a line in UTF-16 code units, zero past the end. -/
def lineLength (d : Document) (n : Nat) : Nat := ((d.line? n).map Utf16.length).getD 0

/-- The number of characters before a line: all earlier pieces and their line feeds. -/
def lineStart (d : Document) (n : Nat) : Nat :=
  Text.total ((d.pieces.take n).map fun p => p.length + 1)

/-- The end of the document. -/
def stop (d : Document) : Position := ⟨d.lastLine, d.lineLength d.lastLine⟩

/-- The range of the whole document. -/
def fullRange (d : Document) : Range := ⟨⟨0, 0⟩, d.stop⟩

/-! ## Clamping -/

/-- Moves a position into the document: past the last line to the end of the text,
past the end of a line to the end of that line. -/
def clamp (d : Document) (p : Position) : Position :=
  if d.lastLine < p.line then d.stop
  else ⟨p.line, min p.character (d.lineLength p.line)⟩

/-- Clamps both ends of a range; a range that then runs backwards collapses onto its
start. -/
def clampRange (d : Document) (r : Range) : Range :=
  let start := d.clamp r.start
  let stop := d.clamp r.stop
  if start ≤ stop then ⟨start, stop⟩ else ⟨start, start⟩

/-! ## Offsets and slices -/

/-- How many characters of a line it takes to cover a number of code units; units that
end inside a character take that character whole. -/
def charactersFor : Text → Nat → Nat
  | [], _ => 0
  | c :: cs, units => if units = 0 then 0 else charactersFor cs (units - Utf16.units c) + 1

/-- The number of characters of the text before a position, clamped first. -/
def indexAt (d : Document) (p : Position) : Nat :=
  let p := d.clamp p
  d.lineStart p.line + charactersFor ((d.line? p.line).getD []) p.character

/-- The number of bytes of the text before a position, clamped first. -/
def offsetAt (d : Document) (p : Position) : Nat := Utf8.size (d.text.take (d.indexAt p))

/-- The text of a range, clamped first. -/
def slice (d : Document) (r : Range) : Text :=
  let r := d.clampRange r
  (d.text.take (d.indexAt r.stop)).drop (d.indexAt r.start)

/-! ## First facts -/

theorem lineCount_eq (d : Document) : d.lineCount = d.text.count '\n' + 1 :=
  Text.length_pieces d.text

theorem lineCount_pos (d : Document) : 0 < d.lineCount := by
  rw [lineCount_eq]
  omega

theorem clamp_of_lastLine_lt {d : Document} {p : Position} (h : d.lastLine < p.line) :
    d.clamp p = d.stop := by
  simp [clamp, h]

end Document

end FishCheck
