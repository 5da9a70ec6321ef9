import FishCheck.Settings.Basic
import FishCheck.Settings.Mismatch
import FishCheck.Text.Order
import FishCheck.Toml.Reader

/-!
# Settings in a file

A settings file is a table with at most the six keys of the settings. Its keys are
looked at in sorted order and the first one that is unknown or holds a value that
does not fit is reported, with its place in the file; a file with any such key, or
one that is not well formed, gives no settings at all.
-/

namespace FishCheck

namespace SettingsFile

/-! ## What can be wrong with a file -/

/-- Why a file gives no settings. -/
inductive Problem
  /-- The file is not well formed. -/
  | malformed
  /-- A number is too large to be read at all. -/
  | outOfRange (span : Toml.Span)
  | unknownKey (span : Toml.Span) (name : Text)
  | mismatch (span : Toml.Span) (m : Mismatch)
deriving DecidableEq, Repr

/-- The keys of a settings file. -/
def keys : List Text :=
  ["checker", "formatter", "formatter-args", "timeout", "enable-linting", "enable-formatting"]

/-- The wording of a problem, without its place. -/
def Problem.wording : Problem → Text
  | .malformed => "not a well-formed configuration file"
  | .outOfRange _ => "number out of range"
  | .unknownKey _ name =>
    "unknown field " ++ Found.ticked name ++ ", expected one of " ++
      (", ".toList).intercalate (keys.map Found.ticked)
  | .mismatch _ m => m.message

/-- The place of a problem, if it has one. -/
def Problem.span? : Problem → Option Toml.Span
  | .malformed => none
  | .outOfRange s | .unknownKey s _ | .mismatch s _ => some s

/-- Points at a place in a file: the line with carets under the place. -/
def pointAt (source : Text) (span : Toml.Span) : Text :=
  let start := source.length - span.start
  let before := source.take start
  let marked := (source.take (source.length - span.stop)).drop start
  let line := before.count '\n'
  let column := (before.reverse.takeWhile (· ≠ '\n')).length
  let content := (Text.pieces source)[line]?.getD []
  let number := Text.decimal (line + 1)
  let margin := List.replicate (number.length + 1) ' '
  let width := min (Utf8.size marked) (Utf8.size content - column)
  "TOML parse error at line " ++ number ++ ", column " ++ Text.decimal (column + 1) ++ "\n" ++
    margin ++ "|\n" ++ number ++ " | " ++ content ++ "\n" ++
    margin ++ "|" ++ List.replicate (column + 1) ' ' ++ List.replicate (max 1 width) '^' ++ "\n"

/-- A problem with its place in the file. -/
def Problem.report (source : Text) (p : Problem) : Text :=
  (match p.span? with
    | some span => pointAt source span
    | none => []) ++ p.wording ++ "\n"

/-! ## Values of settings -/

/-- What a value is, for a message; none when the number cannot be read. -/
def found? : Toml.Node → Option Found
  | .scalar _ (.string t) => some (.string t)
  | .scalar _ (.integer i) =>
    if i < -170141183460469231731687303715884105728 ∨
        340282366920938463463374607431768211455 < i then none
    else some (.integer i)
  | .scalar _ (.float (.finite d)) => if d.overflows then none else some (.fraction d)
  | .scalar _ (.float (.infinite negative)) => some (.infinite negative)
  | .scalar _ (.float .notANumber) => some .notANumber
  | .scalar _ (.boolean b) => some (.boolean b)
  | .scalar _ .dateTime => some .map
  | .array .. | .tables .. => some .sequence
  | .table .. => some .map

/-- Reports a value of another kind. -/
def wrongKind (node : Toml.Node) (expected : Expected) : Problem :=
  match found? node with
  | some found => .mismatch node.span (.kind found expected)
  | none => .outOfRange node.span

/-- A value that has to be a string. -/
def readString (node : Toml.Node) : Except Problem Text :=
  match node with
  | .scalar _ (.string t) => .ok t
  | node => .error (wrongKind node .string)

/-- A value that has to be a truth value. -/
def readTruth (node : Toml.Node) : Except Problem Bool :=
  match node with
  | .scalar _ (.boolean b) => .ok b
  | node => .error (wrongKind node .truthValue)

/-- A value that has to be a whole number of 64 bits. -/
def readWhole (node : Toml.Node) : Except Problem Nat :=
  match node with
  | .scalar span (.integer i) =>
    if 0 ≤ i ∧ i ≤ 18446744073709551615 then .ok i.toNat
    else if -9223372036854775808 ≤ i ∧ i < 0 then
      .error (.mismatch span (.value (.integer i) .wholeNumber))
    else .error (wrongKind node .wholeNumber)
  | node => .error (wrongKind node .wholeNumber)

/-- A value that has to be a list of strings. -/
def readStrings (node : Toml.Node) : Except Problem (List Text) :=
  match node with
  | .array _ items => items.mapM readString
  | .tables _ items => items.reverse.mapM readString
  | node => .error (wrongKind node .sequence)

/-- Adds one entry of the file to the settings read so far. -/
def readEntry (l : Layer) (key : Toml.Key) (value : Toml.Node) : Except Problem Layer :=
  if key.name = "checker" then (readString value).map fun v => { l with checker := some v }
  else if key.name = "formatter" then (readString value).map fun v => { l with formatter := some v }
  else if key.name = "formatter-args" then
    (readStrings value).map fun v => { l with formatterArgs := some v }
  else if key.name = "timeout" then (readWhole value).map fun v => { l with timeout := some v }
  else if key.name = "enable-linting" then
    (readTruth value).map fun v => { l with enableLinting := some v }
  else if key.name = "enable-formatting" then
    (readTruth value).map fun v => { l with enableFormatting := some v }
  else .error (.unknownKey key.span key.name)

/-- The settings of a table, its keys looked at in sorted order. -/
def readEntries (entries : Toml.Entries) : Except Problem Layer :=
  (entries.mergeSort fun a b => Text.atMost a.1.name b.1.name).foldlM
    (fun l e => readEntry l e.1 e.2) {}

/-- The settings that the text of a file gives. -/
def read (source : Text) : Except Problem Layer :=
  match Toml.read? source with
  | none => .error .malformed
  | some entries => readEntries entries

end SettingsFile

end FishCheck
