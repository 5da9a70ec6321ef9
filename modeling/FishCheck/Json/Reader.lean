import FishCheck.Json.Basic

/-!
# Reading JSON

The reader follows the grammar of JSON: each function takes the text that is left and
gives what it read with the text that is left after it. A name that comes twice in an
object keeps its first place and its last value. A text is a value only when nothing
but blanks follows.
-/

namespace FishCheck

namespace Json

/-! ## Blanks, words and numbers -/

/-- Whether JSON allows the character between tokens. -/
def isJsonBlank (c : Char) : Bool := c == ' ' || c == '\t' || c == '\n' || c == '\r'

/-- Drops the blanks before a token. -/
def skipBlanks (t : Text) : Text := t.dropWhile isJsonBlank

/-- Reads the digits at the front of a text onto a value; also gives how many. -/
def readRun : Nat → Nat → Text → Nat × Nat × Text
  | value, count, c :: cs =>
    match Text.digitValue? c with
    | some d => readRun (10 * value + d) (count + 1) cs
    | none => (value, count, c :: cs)
  | value, count, [] => (value, count, [])

/-- Reads an exponent after its letter. -/
def readExponent? (t : Text) : Option (Int × Text) :=
  let (negative, t) := match t with
    | '-' :: r => (true, r)
    | '+' :: r => (false, r)
    | _ => (false, t)
  match readRun 0 0 t with
  | (_, 0, _) => none
  | (value, _, rest) => some (if negative then -(value : Int) else value, rest)

/-- The largest whole number that is kept whole; a larger one is a fraction. -/
def maxWhole : Nat := 18446744073709551615

/-- The smallest whole number that is kept whole. -/
def minWhole : Int := -9223372036854775808

/-- Reads a number: an integer, or a fraction when it has a point, an exponent, a
negative zero or too many digits. -/
def readNumber? (t : Text) : Option (Json × Text) :=
  let (negative, t) := match t with
    | '-' :: r => (true, r)
    | _ => (false, t)
  match readRun 0 0 t with
  | (_, 0, _) => none
  | (value, count, rest) =>
    if 1 < count ∧ t.head? = some '0' then none
    else
      let fraction : Option (Option (Nat × Nat) × Text) := match rest with
        | '.' :: r => match readRun value 0 r with
          | (_, 0, _) => none
          | (digits, places, r) => some (some (digits, places), r)
        | _ => some (none, rest)
      fraction.bind fun (fraction, rest) =>
        let exponent : Option (Option Int × Text) := match rest with
          | c :: r => if c = 'e' ∨ c = 'E' then (readExponent? r).map fun (e, r) => (some e, r)
            else some (none, rest)
          | [] => some (none, rest)
        exponent.bind fun (exponent, rest) =>
          let (digits, places) := fraction.getD (value, 0)
          let real : Decimal := ⟨negative, digits, exponent.getD 0 - places⟩
          let whole : Int := if negative then -(value : Int) else value
          if fraction.isNone && exponent.isNone && minWhole ≤ whole && whole ≤ maxWhole &&
              !(negative && value == 0) then some (.int whole, rest)
          else if real.overflows then none
          else some (.real real, rest)

/-! ## Strings -/

/-- The value of four hexadecimal digits. -/
def readHex4? : Text → Option (Nat × Text)
  | a :: b :: c :: d :: rest => do
    let digit (c : Char) : Option Nat :=
      if '0' ≤ c ∧ c ≤ '9' then some (c.toNat - 48)
      else if 'a' ≤ c ∧ c ≤ 'f' then some (c.toNat - 87)
      else if 'A' ≤ c ∧ c ≤ 'F' then some (c.toNat - 55)
      else none
    some ((((← digit a) * 16 + (← digit b)) * 16 + (← digit c)) * 16 + (← digit d), rest)
  | _ => none

/-- Reads an escape by code unit after its `u`; a high surrogate takes the low one with
it. -/
def readUnit? (t : Text) : Option (Char × Text) := do
  let (high, rest) ← readHex4? t
  if 0xD800 ≤ high ∧ high < 0xDC00 then
    match rest with
    | '\\' :: 'u' :: r =>
      let (low, rest) ← readHex4? r
      if 0xDC00 ≤ low ∧ low < 0xE000 then
        some (Char.ofNat (0x10000 + (high - 0xD800) * 0x400 + (low - 0xDC00)), rest)
      else none
    | _ => none
  else if 0xDC00 ≤ high ∧ high < 0xE000 then none
  else some (Char.ofNat high, rest)

/-- The character of a one-letter escape. -/
def simpleEscape? (c : Char) : Option Char :=
  match c with
  | '"' => some '"'
  | '\\' => some '\\'
  | '/' => some '/'
  | 'b' => some '\x08'
  | 'f' => some '\x0c'
  | 'n' => some '\n'
  | 'r' => some '\r'
  | 't' => some '\t'
  | _ => none

/-- Reads a string after its opening quote; the characters so far come in reverse. -/
def readString? (fuel : Nat) (done : Text) (t : Text) : Option (Text × Text) :=
  match fuel, t with
  | 0, _ => none
  | _, [] => none
  | _ + 1, '"' :: rest => some (done.reverse, rest)
  | fuel + 1, '\\' :: 'u' :: rest =>
    match readUnit? rest with
    | some (c, rest) => readString? fuel (c :: done) rest
    | none => none
  | fuel + 1, '\\' :: c :: rest =>
    match simpleEscape? c with
    | some e => readString? fuel (e :: done) rest
    | none => none
  | fuel + 1, c :: rest => if c.toNat < 0x20 then none else readString? fuel (c :: done) rest

/-! ## Values -/

mutual

/-- Reads a value; the fuel bounds the depth and the number of steps. -/
def readValue? : Nat → Text → Option (Json × Text)
  | 0, _ => none
  | fuel + 1, t =>
    match skipBlanks t with
    | 'n' :: 'u' :: 'l' :: 'l' :: rest => some (.null, rest)
    | 't' :: 'r' :: 'u' :: 'e' :: rest => some (.bool true, rest)
    | 'f' :: 'a' :: 'l' :: 's' :: 'e' :: rest => some (.bool false, rest)
    | '"' :: rest => (readString? (rest.length + 1) [] rest).map fun (s, rest) => (.str s, rest)
    | '[' :: rest =>
      match skipBlanks rest with
      | ']' :: rest => some (.arr [], rest)
      | rest => readItems? fuel [] rest
    | '\x7b' :: rest =>
      match skipBlanks rest with
      | '\x7d' :: rest => some (.obj [], rest)
      | rest => readMembers? fuel [] rest
    | rest => readNumber? rest

/-- Reads the items of an array after its bracket; the items so far come in reverse. -/
def readItems? : Nat → List Json → Text → Option (Json × Text)
  | 0, _, _ => none
  | fuel + 1, done, t =>
    match readValue? fuel t with
    | none => none
    | some (item, rest) =>
      match skipBlanks rest with
      | ',' :: rest => readItems? fuel (item :: done) rest
      | ']' :: rest => some (.arr (item :: done).reverse, rest)
      | _ => none

/-- Reads the members of an object after its brace. -/
def readMembers? : Nat → List (Text × Json) → Text → Option (Json × Text)
  | 0, _, _ => none
  | fuel + 1, done, t =>
    match skipBlanks t with
    | '"' :: rest =>
      match readString? (rest.length + 1) [] rest with
      | none => none
      | some (name, rest) =>
        match skipBlanks rest with
        | ':' :: rest =>
          match readValue? fuel rest with
          | none => none
          | some (value, rest) =>
            match skipBlanks rest with
            | ',' :: rest => readMembers? fuel (put name value done) rest
            | '\x7d' :: rest => some (.obj (put name value done), rest)
            | _ => none
        | _ => none
    | _ => none

end

/-- Reads a text that is one JSON value. -/
def read? (t : Text) : Option Json :=
  match readValue? (t.length + 1) t with
  | some (value, rest) => if (skipBlanks rest).isEmpty then some value else none
  | none => none

end Json

end FishCheck
