import FishCheck.Text.Basic

/-!
# Decimal fractions and their shortest writing

Configuration files and editors may give a fraction where a whole number is due; the
message then shows the number in its shortest form. A fraction is rounded to the
nearest binary number of 53 significant bits, and its shortest form is the decimal
with the fewest digits that rounds to the same binary number, written without an
exponent.

Main results:

- Theorem `roundDiv_mul`: an exact quotient is rounded to itself.
-/

namespace FishCheck

/-- The decimal fraction `digits * 10 ^ exponent`, possibly negated. -/
structure Decimal where
  negative : Bool
  digits : Nat
  exponent : Int
deriving DecidableEq, Repr

namespace Decimal

/-! ## Rounding to binary -/

/-- A quotient rounded to the nearest integer, a tie to the even one. -/
def roundDiv (num den : Nat) : Nat :=
  let q := num / den
  let r := num % den
  if 2 * r < den then q else if den < 2 * r then q + 1 else if q % 2 = 0 then q else q + 1

/-- A positive binary number `mantissa * 2 ^ exponent`. -/
structure Binary where
  mantissa : Nat
  exponent : Int
deriving DecidableEq, Repr

/-- The product `n * 10 ^ e * 2 ^ q` as a quotient of two natural numbers. -/
def ratio (n : Nat) (e q : Int) : Nat × Nat :=
  let num := n * Nat.pow 10 e.toNat * Nat.pow 2 q.toNat
  let den := Nat.pow 10 (-e).toNat * Nat.pow 2 (-q).toNat
  (num, den)

/-- The smallest binary exponent. -/
def minExponent : Int := -1074

/-- The binary number nearest to `digits * 10 ^ exponent`; none when it is too large.
Values far out of range are decided before any power is taken. -/
def nearest? (digits : Nat) (exponent : Int) : Option Binary :=
  let size := exponent + (Text.decimal digits).length
  if digits = 0 ∨ size < -400 then some ⟨0, minExponent⟩
  else if 400 < size then none
  else
    let (num, den) := ratio digits exponent 0
    let guess : Int := (num.log2 : Int) - (den.log2 : Int) - 53
    let scaled (q : Int) : Nat := let (a, b) := ratio digits exponent (-q); roundDiv a b
    let q := if (scaled guess) < Nat.pow 2 53 then guess else guess + 1
    let q := if (scaled q) < Nat.pow 2 53 then q else q + 1
    let q := if q < minExponent then minExponent else q
    let m := scaled q
    let (m, q) := if m = Nat.pow 2 53 then (Nat.pow 2 52, q + 1) else (m, q)
    if 971 < q then none else some ⟨m, q⟩

/-! ## The shortest decimal -/

/-- Whether `c * 10 ^ p` rounds to the binary number. -/
def roundsTo (b : Binary) (c : Nat) (p : Int) : Bool := nearest? c p == some b

/-- The exponent of the leading decimal digit of a positive quotient, or one more. -/
def leadingExponent (num den : Nat) : Int :=
  if den ≤ num then ((Text.decimal (num / den)).length : Int) - 1
  else 1 - ((Text.decimal (den / num)).length : Int)

/-- Looks for a decimal of the given number of digits, then of more, that rounds to the
binary number; of two neighbours the nearer counts. -/
def search (b : Binary) (num den : Nat) (top : Int) : Nat → Nat → Nat × Int
  | _, 0 => (0, 0)
  | count, fuel + 1 =>
    let p := top - (count : Int) + 1
    let scaledNum := num * Nat.pow 10 (-p).toNat
    let scaledDen := den * Nat.pow 10 p.toNat
    let low := scaledNum / scaledDen
    let near := roundDiv scaledNum scaledDen
    let far := if near = low then low + 1 else low
    if roundsTo b near p then (near, p)
    else if roundsTo b far p then (far, p)
    else search b num den top (count + 1) fuel

/-- Removes trailing zeros of a positive number, raising the exponent. -/
def normalize (c : Nat) (p : Int) : Nat → Nat × Int
  | 0 => (c, p)
  | fuel + 1 => if c ≠ 0 ∧ c % 10 = 0 then normalize (c / 10) (p + 1) fuel else (c, p)

/-- The digits `c * 10 ^ p` without an exponent, always with a fractional part. -/
def writePositional (c : Nat) (p : Int) : Text :=
  let ds := Text.decimal c
  if 0 ≤ p then ds ++ List.replicate p.toNat '0' ++ ".0"
  else
    let places := (-p).toNat
    let padded := List.replicate (places + 1 - ds.length) '0' ++ ds
    padded.take (padded.length - places) ++ "." ++ padded.drop (padded.length - places)

/-- The shortest writing of a fraction; `inf` when it is too large. -/
def shortest (d : Decimal) : Text :=
  let sign : Text := if d.negative then "-" else []
  match nearest? d.digits d.exponent with
  | none => sign ++ "inf"
  | some b =>
    if b.mantissa = 0 then sign ++ "0.0"
    else
      let (num, den) := ratio b.mantissa 0 b.exponent
      let (c, p) := search b num den (leadingExponent num den) 1 20
      let (c, p) := normalize c p 20
      sign ++ writePositional c p

/-- Whether a fraction is too large for a binary number. -/
def overflows (d : Decimal) : Bool := (nearest? d.digits d.exponent).isNone

/-- An exact quotient is rounded to itself. -/
theorem roundDiv_mul (n : Nat) {d : Nat} (h : 0 < d) : roundDiv (n * d) d = n := by
  simp [roundDiv, Nat.mul_div_cancel n h, h]

end Decimal

end FishCheck
