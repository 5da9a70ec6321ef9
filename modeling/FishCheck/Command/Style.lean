import FishCheck.Text.Basic

/-!
# Colours

Reports for people set off some of their words by colour. Colours are on only when the
environment asks for them, since output that goes to a program has none.
-/

namespace FishCheck

/-- Whether reports are coloured. -/
structure Palette where
  colored : Bool := false
deriving DecidableEq, Repr

namespace Palette

/-- The palette that the environment asks for: a zero counts as no wish. -/
def ofEnvironment (force : Option Text) : Palette :=
  ⟨force.any fun t => t != ['0']⟩

/-- Sets a text off by the codes of a style. -/
def paint (p : Palette) (codes : String) (t : Text) : Text :=
  if p.colored then "\x1B[".toList ++ codes.toList ++ 'm' :: t ++ "\x1B[0m".toList else t

/-- The word that starts an error. -/
def error (p : Palette) : Text := p.paint "1;31" "Error"

/-- The word that starts a warning. -/
def warning (p : Palette) : Text := p.paint "1;33" "Warning"

/-- The word that starts a list of issues. -/
def issues (p : Palette) : Text := p.paint "1;33" "Issues:"

/-- The word that starts a success. -/
def success (p : Palette) : Text := p.paint "1;32" "Success:"

/-- The name of a file. -/
def file (p : Palette) (t : Text) : Text := p.paint "4;34" t

/-- A number of a line or column. -/
def place (p : Palette) (t : Text) : Text := p.paint "36" t

/-- A remark. -/
def remark (p : Palette) (t : Text) : Text := p.paint "2" t

end Palette

end FishCheck
