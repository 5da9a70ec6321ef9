import FishCheck.Text.Basic

/-!
# UTF-16 measures

Editors count the characters of a line in UTF-16 code units: one for most
characters, two for those beyond the basic plane. This module measures text in
those units and gives the units themselves, which is what an editor compares.

Main results:

- Theorem `length_encode`: the measure of a text is the number of its code units.
- Theorem `length_append`: measures add up.
-/

namespace FishCheck

namespace Utf16

/-- The number of code units of a character. -/
def units (c : Char) : Nat := if c.toNat < 0x10000 then 1 else 2

/-- The number of code units of a text. -/
def length : Text → Nat
  | [] => 0
  | c :: cs => units c + length cs

/-- The code units of a character: itself, or a high and a low surrogate. -/
def encodeChar (c : Char) : List UInt16 :=
  let n := c.toNat
  if n < 0x10000 then [UInt16.ofNat n]
  else
    [UInt16.ofNat (0xD800 + (n - 0x10000) / 0x400),
      UInt16.ofNat (0xDC00 + (n - 0x10000) % 0x400)]

/-- The code units of a text. -/
def encode (t : Text) : List UInt16 := t.flatMap encodeChar

theorem units_pos (c : Char) : 0 < units c := by
  unfold units
  split <;> omega

theorem units_le_two (c : Char) : units c ≤ 2 := by
  unfold units
  split <;> omega

theorem length_append (s t : Text) : length (s ++ t) = length s + length t := by
  induction s with
  | nil => simp [length]
  | cons c cs ih => simp [length, ih]; omega

theorem length_encodeChar (c : Char) : (encodeChar c).length = units c := by
  unfold encodeChar units
  simp only
  split <;> rfl

/-- The measure of a text counts its code units. -/
theorem length_encode (t : Text) : (encode t).length = length t := by
  induction t with
  | nil => rfl
  | cons c cs ih => simp_all [encode, length, length_encodeChar]

end Utf16

end FishCheck
