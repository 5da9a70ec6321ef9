import FishCheck.Json.Basic
import FishCheck.Settings.Basic
import FishCheck.Settings.Mismatch

/-!
# Settings from an editor

An editor may send the six settings and the path of a settings file, as an object with
those names or as an array in a fixed order. Unknown names are ignored and null stands
for a setting that is not given; any value that does not fit spoils all of them.
-/

namespace FishCheck

/-- What an editor sends: the path of a settings file, and settings on top of it. -/
structure EditorOptions where
  configPath : Option Text := none
  layer : Layer := {}
deriving DecidableEq, Repr

namespace EditorOptions

/-- Why what an editor sent cannot be used. -/
inductive Problem
  | mismatch (m : Mismatch)
  | tooMany (count : Nat)
deriving DecidableEq, Repr

/-- The wording of a problem. -/
def Problem.message : Problem → Text
  | .mismatch m => m.message
  | .tooMany count =>
    "invalid length " ++ Text.decimal count ++ ", expected fewer elements in array"

/-! ## Values -/

/-- What a JSON value is, for a message. -/
def found : Json → Found
  | .null => .null
  | .bool b => .boolean b
  | .int i => .integer i
  | .real d => .fraction d
  | .str t => .string t
  | .arr _ => .sequence
  | .obj _ => .map

/-- Reports a value of another kind. -/
def wrongKind (j : Json) (expected : Expected) : Problem := .mismatch (.kind (found j) expected)

/-- A value that has to be a string. -/
def readString : Json → Except Problem Text
  | .str t => .ok t
  | j => .error (wrongKind j .string)

/-- A value that has to be a truth value. -/
def readTruth : Json → Except Problem Bool
  | .bool b => .ok b
  | j => .error (wrongKind j .truthValue)

/-- A value that has to be a whole number that is not negative. -/
def readWhole : Json → Except Problem Nat
  | .int i =>
    if 0 ≤ i then .ok i.toNat else .error (.mismatch (.value (.integer i) .wholeNumber))
  | j => .error (wrongKind j .wholeNumber)

/-- A value that has to be a list of strings. -/
def readStrings : Json → Except Problem (List Text)
  | .arr items => items.mapM readString
  | j => .error (wrongKind j .sequence)

/-- A value that may be null. -/
def optional (read : Json → Except Problem α) : Json → Except Problem (Option α)
  | .null => .ok none
  | j => (read j).map some

/-! ## Members -/

/-- The names of the members, in the order in which an array gives them. -/
def names : List Text :=
  ["configPath", "checker", "formatter", "formatterArgs", "timeout", "enableLinting",
    "enableFormatting"]

/-- Adds one member to the options read so far. -/
def readMember (o : EditorOptions) (name : Text) (value : Json) : Except Problem EditorOptions :=
  if name = "configPath" then
    (optional readString value).map fun v => { o with configPath := v }
  else if name = "checker" then
    (optional readString value).map fun v => { o with layer := { o.layer with checker := v } }
  else if name = "formatter" then
    (optional readString value).map fun v => { o with layer := { o.layer with formatter := v } }
  else if name = "formatterArgs" then
    (optional readStrings value).map fun v =>
      { o with layer := { o.layer with formatterArgs := v } }
  else if name = "timeout" then
    (optional readWhole value).map fun v => { o with layer := { o.layer with timeout := v } }
  else if name = "enableLinting" then
    (optional readTruth value).map fun v => { o with layer := { o.layer with enableLinting := v } }
  else if name = "enableFormatting" then
    (optional readTruth value).map fun v =>
      { o with layer := { o.layer with enableFormatting := v } }
  else .ok o

/-- Reads members in the order in which they came. -/
def readMembers (members : List (Text × Json)) : Except Problem EditorOptions :=
  members.foldlM (fun o m => readMember o m.1 m.2) {}

/-- Reads what an editor sent. -/
def read : Json → Except Problem EditorOptions
  | .obj members => readMembers members
  | .arr items => do
    let options ← readMembers (names.zip items)
    if names.length < items.length then .error (.tooMany items.length) else .ok options
  | j => .error (wrongKind j .options)

end EditorOptions

end FishCheck
