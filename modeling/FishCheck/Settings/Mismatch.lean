import FishCheck.Decimal
import FishCheck.Text.Quoted

/-!
# Values of the wrong kind

Files and editors may give a value where a setting asks for another kind. The message
names what was found and what was expected; the limits that decide how a whole number
is named are those of the machine's integers.
-/

namespace FishCheck

/-- What was found in place of a setting's value. -/
inductive Found
  | string (t : Text)
  | integer (i : Int)
  | fraction (d : Decimal)
  | infinite (negative : Bool)
  | notANumber
  | boolean (b : Bool)
  | sequence
  | map
  | null
deriving DecidableEq, Repr

/-- What a setting expects. -/
inductive Expected
  | string
  | wholeNumber
  | truthValue
  | sequence
  | options
deriving DecidableEq, Repr

/-- A value that does not fit. -/
inductive Mismatch
  /-- A value of another kind. -/
  | kind (found : Found) (expected : Expected)
  /-- A value of the right kind outside the range. -/
  | value (found : Found) (expected : Expected)
deriving DecidableEq, Repr

namespace Found

/-- Between the ticks that messages put around a value. -/
def ticked (t : Text) : Text := '\x60' :: (t ++ ['\x60'])

/-- How an integer is named: with a note when 64 bits do not hold it. -/
def ofInteger (i : Int) : Text :=
  "integer " ++ ticked (Text.signedDecimal i) ++
    (if i < -9223372036854775808 ∨ (18446744073709551615 < i ∧
        i ≤ 170141183460469231731687303715884105727) then " as i128".toList
      else if 18446744073709551615 < i then " as u128".toList else [])

/-- The name of what was found. -/
def toText : Found → Text
  | .string t => "string " ++ Text.quote t
  | .integer i => ofInteger i
  | .fraction d => "floating point " ++ ticked d.shortest
  | .infinite negative => "floating point " ++ ticked (if negative then "-inf" else "inf")
  | .notANumber => "floating point " ++ ticked "NaN"
  | .boolean b => "boolean " ++ ticked (if b then "true" else "false")
  | .sequence => "sequence"
  | .map => "map"
  | .null => "null"

end Found

/-- The name of what was expected. -/
def Expected.toText : Expected → Text
  | .string => "a string"
  | .wholeNumber => "u64"
  | .truthValue => "a boolean"
  | .sequence => "a sequence"
  | .options => "struct FishlintLspOptions"

/-- The wording of a mismatch. -/
def Mismatch.message : Mismatch → Text
  | .kind found expected => "invalid type: " ++ found.toText ++ ", expected " ++ expected.toText
  | .value found expected => "invalid value: " ++ found.toText ++ ", expected " ++ expected.toText

end FishCheck
