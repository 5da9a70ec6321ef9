import FishCheck.Text.Digit
import FishCheck.Url.File

/-!
# Complaints of the checker

The checker reports each syntax error on a line of its own, as the file, the marker
` (line N): ` and a message, and follows it with lines of context that no one needs.
A line is read at its first marker: the file is what stands before it and is not
empty, and a number that is no line number drops the whole line. Complaints about
one document are those whose file, after expanding a leading `~`, is that document's
path.

Main results:

- Theorem `readAll_eq`: each stretch between line feeds is read on its own.
- Theorem `marker_append`: a well-formed marker is found where it stands.
-/

namespace FishCheck

/-- One syntax error that the checker reports. -/
structure Complaint where
  /-- The file as the checker prints it; it may start with `~`. -/
  file : Text
  /-- The line, counted from one. -/
  line : Nat
  message : Text
deriving DecidableEq, Repr

namespace Complaint

/-! ## The line format -/

/-- What stands before the line number. -/
def opening : Text := " (line "

/-- What stands after the line number. -/
def closing : Text := "): "

/-- The largest line number that is read. -/
def maxLine : Nat := 4294967295

/-- Reads a marker at the front of a text: its digits, of any script, and the rest. -/
def marker? (t : Text) : Option (Text × Text) := do
  let rest ← opening.isPrefixOf? t
  let after ← closing.isPrefixOf? (rest.dropWhile Text.isDecimalDigit)
  let digits := rest.takeWhile Text.isDecimalDigit
  if digits.isEmpty then none else some (digits, after)

/-- Cuts a text at its first marker that something stands before: what stands before,
the digits, and what follows. -/
def firstMarker? : Text → Option (Text × Text × Text)
  | [] => none
  | c :: cs =>
    match marker? cs with
    | some (digits, after) => some ([c], digits, after)
    | none => (firstMarker? cs).map fun (file, digits, after) => (c :: file, digits, after)

/-- The line number that digits spell: ASCII digits, from one to the largest. -/
def lineNumber? (digits : Text) : Option Nat :=
  (Text.natural? digits).filter fun n => 1 ≤ n && n ≤ maxLine

/-- Reads one line of checker output, without its line feed. -/
def ofLine? (line : Text) : Option Complaint := do
  let (file, digits, after) ← firstMarker? line
  let number ← lineNumber? digits
  pure ⟨file, number, Text.dropReturn after⟩

/-- The complaints in checker output, in order. -/
def readAll (output : Text) : List Complaint := (Text.pieces output).filterMap ofLine?

/-- A complaint as the checker prints it, without the end of the line. -/
def toLine (c : Complaint) : Text :=
  c.file ++ opening ++ Text.decimal c.line ++ closing ++ c.message

/-! ## The document that a complaint is about -/

/-- Expands a leading `~`, alone or before a separator, to the home directory. -/
def expandHome (file : Text) (home : Option Path) : Path :=
  match home with
  | none => Path.ofText file
  | some home =>
    if file = "~" then home
    else match "~/".toList.isPrefixOf? file <|> "~\\".toList.isPrefixOf? file with
      | some rest => home.join (Path.ofText rest)
      | none => Path.ofText file

/-- The path of the file that a complaint is about. -/
def path (c : Complaint) (home : Option Path) : Path := expandHome c.file home

/-- Whether a complaint is about the given path; relative paths are about nothing. -/
def isAbout (c : Complaint) (document : Path) (home : Option Path) : Bool :=
  match Url.ofPath? document, Url.ofPath? (c.path home) with
  | some u, some v => u == v
  | _, _ => false

/-- The complaints in checker output about one document, in order. -/
def readFor (output : Text) (document : Path) (home : Option Path) : List Complaint :=
  (readAll output).filter (·.isAbout document home)

/-! ## First facts -/

/-- Each stretch between line feeds is read on its own. -/
theorem readAll_eq (output : Text) : readAll output = (Text.pieces output).filterMap ofLine? := rfl

/-- A marker of decimal digits is found where it stands. -/
theorem marker_append {digits : Text} (hne : digits ≠ [])
    (hd : ∀ c ∈ digits, Text.isDecimalDigit c = true) (after : Text) :
    marker? (opening ++ digits ++ closing ++ after) = some (digits, after) := by
  have ho : opening.isPrefixOf? (opening ++ digits ++ closing ++ after)
      = some (digits ++ (closing ++ after)) :=
    Text.isPrefixOf?_eq_some_iff.2 (by simp only [List.append_assoc])
  have hclose : Text.isDecimalDigit ')' = false := by decide
  have ht : (digits ++ (closing ++ after)).takeWhile Text.isDecimalDigit = digits := by
    rw [List.takeWhile_append_of_pos hd]
    simp [closing, hclose]
  have hdr : (digits ++ (closing ++ after)).dropWhile Text.isDecimalDigit = closing ++ after := by
    rw [List.dropWhile_append_of_pos hd]
    simp [closing, hclose]
  have hc : closing.isPrefixOf? (closing ++ after) = some after :=
    Text.isPrefixOf?_eq_some_iff.2 rfl
  simp only [marker?, ho, ht, hdr, hc, Option.bind_eq_bind, Option.bind_some, List.isEmpty_iff, hne,
    if_false]

end Complaint

end FishCheck
