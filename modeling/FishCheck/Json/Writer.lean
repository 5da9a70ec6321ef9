import FishCheck.Json.Basic

/-!
# Writing JSON

A value is written without blanks. Strings escape the quote, the backslash and the
controls; everything else stands as it is. Fractions are written exactly, with an
exponent.
-/

namespace FishCheck

namespace Json

/-- A hexadecimal digit in lower case. -/
def escapeDigit (n : Nat) : Char :=
  if n < 10 then Char.ofNat (48 + n) else Char.ofNat (87 + n)

/-- A character inside a string. -/
def writeChar (c : Char) : Text :=
  if c = '"' then "\\\""
  else if c = '\\' then "\\\\"
  else if c = '\n' then "\\n"
  else if c = '\r' then "\\r"
  else if c = '\t' then "\\t"
  else if c.toNat < 0x20 then
    "\\u00" ++ [escapeDigit (c.toNat / 16), escapeDigit (c.toNat % 16)]
  else [c]

/-- A string between quotes. -/
def writeString (t : Text) : Text := '"' :: (t.flatMap writeChar ++ ['"'])

/-- A fraction, exactly. -/
def writeReal (d : Decimal) : Text :=
  (if d.negative then ['-'] else []) ++ Text.decimal d.digits ++ "e" ++
    Text.signedDecimal d.exponent

mutual

/-- A value as text. -/
def write : Json → Text
  | .null => "null"
  | .bool b => if b then "true" else "false"
  | .int i => Text.signedDecimal i
  | .real d => writeReal d
  | .str t => writeString t
  | .arr items => '[' :: (writeItems items ++ "]")
  | .obj members => '\x7b' :: (writeMembers members ++ "\x7d")

/-- The items of an array, separated by commas. -/
def writeItems : List Json → Text
  | [] => []
  | [item] => write item
  | item :: rest => write item ++ ',' :: writeItems rest

/-- The members of an object, separated by commas. -/
def writeMembers : List (Text × Json) → Text
  | [] => []
  | [(name, value)] => writeString name ++ ':' :: write value
  | (name, value) :: rest => writeString name ++ ':' :: (write value ++ ',' :: writeMembers rest)

end

end Json

end FishCheck
