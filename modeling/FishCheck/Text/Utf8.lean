import FishCheck.Text.Basic

/-!
# UTF-8

Files, pipes and paths hold bytes; text reaches them in UTF-8. Decoding is a small
machine that takes one byte at a time. It reports each complete character and each
malformed stretch once, so the strict reading (no malformed stretch allowed) and the
lenient reading (a replacement character for each) come from the same run.

Main results:

- Theorem `lenient_encode`: decoding the encoding of a text leniently gives the text.
- Theorem `strict_encode`: so does decoding it strictly.
-/

namespace FishCheck

/-- A sequence of bytes, as files and pipes hold it. -/
abbrev Bytes := List UInt8

namespace Utf8

/-! ## Encoding -/

/-- The one to four bytes of a character. -/
def encodeChar (c : Char) : Bytes :=
  let n := c.toNat
  if n < 0x80 then [UInt8.ofNat n]
  else if n < 0x800 then [UInt8.ofNat (0xC0 + n / 64), UInt8.ofNat (0x80 + n % 64)]
  else if n < 0x10000 then
    [UInt8.ofNat (0xE0 + n / 4096), UInt8.ofNat (0x80 + n / 64 % 64), UInt8.ofNat (0x80 + n % 64)]
  else
    [UInt8.ofNat (0xF0 + n / 262144), UInt8.ofNat (0x80 + n / 4096 % 64),
      UInt8.ofNat (0x80 + n / 64 % 64), UInt8.ofNat (0x80 + n % 64)]

/-- The bytes of a text. -/
def encode (t : Text) : Bytes := t.flatMap encodeChar

/-- The number of bytes of a character. -/
def sizeChar (c : Char) : Nat :=
  let n := c.toNat
  if n < 0x80 then 1 else if n < 0x800 then 2 else if n < 0x10000 then 3 else 4

/-- The number of bytes of a text. -/
def size : Text → Nat
  | [] => 0
  | c :: cs => sizeChar c + size cs

theorem length_encodeChar (c : Char) : (encodeChar c).length = sizeChar c := by
  unfold encodeChar sizeChar
  grind

theorem length_encode (t : Text) : (encode t).length = size t := by
  induction t with
  | nil => rfl
  | cons c cs ih => simp_all [encode, size, length_encodeChar]

theorem encode_append (s t : Text) : encode (s ++ t) = encode s ++ encode t := by
  simp [encode]

theorem size_append (s t : Text) : size (s ++ t) = size s + size t := by
  induction s with
  | nil => simp [size]
  | cons c cs ih => simp [size, ih]; omega

theorem sizeChar_pos (c : Char) : 0 < sizeChar c := by
  unfold sizeChar
  grind

/-! ## Decoding -/

/-- What the decoder holds between two bytes: nothing, or the value of a character
begun earlier with the number of bytes still due and the bounds of the next one. -/
inductive Progress
  | idle
  | within (due low high value : Nat)
deriving DecidableEq, Repr

/-- Takes the first byte of a character. -/
def start (b : Nat) : Progress × List (Option Char) :=
  if b < 0x80 then (.idle, [some (Char.ofNat b)])
  else if b < 0xC2 then (.idle, [none])
  else if b < 0xE0 then (.within 1 0x80 0xBF (b - 0xC0), [])
  else if b < 0xF0 then
    (.within 2 (if b = 0xE0 then 0xA0 else 0x80) (if b = 0xED then 0x9F else 0xBF) (b - 0xE0), [])
  else if b < 0xF5 then
    (.within 3 (if b = 0xF0 then 0x90 else 0x80) (if b = 0xF4 then 0x8F else 0xBF) (b - 0xF0), [])
  else (.idle, [none])

/-- Takes one byte; `none` in the output stands for a malformed stretch. -/
def step (p : Progress) (b : UInt8) : Progress × List (Option Char) :=
  match p with
  | .idle => start b.toNat
  | .within due low high value =>
    if low ≤ b.toNat ∧ b.toNat ≤ high then
      let value := value * 64 + (b.toNat - 0x80)
      if due ≤ 1 then (.idle, [some (Char.ofNat value)])
      else (.within (due - 1) 0x80 0xBF value, [])
    else
      let (p, out) := start b.toNat
      (p, none :: out)

/-- Decodes bytes from a given progress; bytes that end within a character leave one
malformed stretch. -/
def unitsFrom (p : Progress) : Bytes → List (Option Char)
  | [] => match p with
    | .idle => []
    | .within .. => [none]
  | b :: bs => (step p b).2 ++ unitsFrom (step p b).1 bs

/-- The characters and malformed stretches of a byte sequence, in order. -/
def units (bs : Bytes) : List (Option Char) := unitsFrom .idle bs

/-- Decodes bytes, with U+FFFD for each malformed stretch. -/
def lenient (bs : Bytes) : Text := (units bs).map fun u => u.getD '\uFFFD'

/-- Decodes bytes that hold no malformed stretch. -/
def strict? (bs : Bytes) : Option Text := (units bs).mapM id

/-! ## Decoding undoes encoding -/

theorem toNat_ofNat_of_lt {n : Nat} (h : n < 256) : (UInt8.ofNat n).toNat = n := by
  simp [Nat.mod_eq_of_lt h]

theorem char_valid (c : Char) : c.toNat < 0xD800 ∨ (0xDFFF < c.toNat ∧ c.toNat < 0x110000) := by
  have h : c.toNat.isValidChar := c.valid
  exact h

theorem unitsFrom_encodeChar (c : Char) (bs : Bytes) :
    unitsFrom .idle (encodeChar c ++ bs) = some c :: unitsFrom .idle bs := by
  have hv := char_valid c
  have hc : Char.ofNat c.toNat = c := Char.ofNat_toNat c
  generalize hn : c.toNat = n at hv hc
  unfold encodeChar
  simp only [hn]
  split
  · rename_i h
    have e1 : (UInt8.ofNat n).toNat = n := toNat_ofNat_of_lt (by omega)
    simp only [List.cons_append, List.nil_append, unitsFrom, step, start, e1, h, if_true, hc]
  · split
    · rename_i h1 h2
      have e1 : (UInt8.ofNat (0xC0 + n / 64)).toNat = 0xC0 + n / 64 := toNat_ofNat_of_lt (by omega)
      have e2 : (UInt8.ofNat (0x80 + n % 64)).toNat = 0x80 + n % 64 := toNat_ofNat_of_lt (by omega)
      have a1 : ¬ 0xC0 + n / 64 < 0x80 := by omega
      have a2 : ¬ 0xC0 + n / 64 < 0xC2 := by omega
      have a3 : 0xC0 + n / 64 < 0xE0 := by omega
      have a4 : 0x80 + n % 64 ≤ 0xBF := by omega
      have a5 : n / 64 * 64 + n % 64 = n := by omega
      simp only [List.cons_append, List.nil_append, unitsFrom, step, start, e1, e2, a1, a2, a3,
        a4, if_true, if_false, Nat.le_add_right, and_self, Nat.le_refl, Nat.add_sub_cancel_left,
        a5, hc]
    · split
      · rename_i h1 h2 h3
        have e1 : (UInt8.ofNat (0xE0 + n / 4096)).toNat = 0xE0 + n / 4096 :=
          toNat_ofNat_of_lt (by omega)
        have e2 : (UInt8.ofNat (0x80 + n / 64 % 64)).toNat = 0x80 + n / 64 % 64 :=
          toNat_ofNat_of_lt (by omega)
        have e3 : (UInt8.ofNat (0x80 + n % 64)).toNat = 0x80 + n % 64 :=
          toNat_ofNat_of_lt (by omega)
        have a1 : ¬ 0xE0 + n / 4096 < 0x80 := by omega
        have a2 : ¬ 0xE0 + n / 4096 < 0xC2 := by omega
        have a3 : ¬ 0xE0 + n / 4096 < 0xE0 := by omega
        have a4 : 0xE0 + n / 4096 < 0xF0 := by omega
        have b1 : (if 0xE0 + n / 4096 = 0xE0 then 0xA0 else 0x80) ≤ 0x80 + n / 64 % 64 := by
          split <;> omega
        have b2 : 0x80 + n / 64 % 64 ≤ (if 0xE0 + n / 4096 = 0xED then 0x9F else 0xBF) := by
          split <;> omega
        have b3 : 0x80 + n % 64 ≤ 0xBF := by omega
        have a5 : (n / 4096 * 64 + n / 64 % 64) * 64 + n % 64 = n := by omega
        simp only [List.cons_append, List.nil_append, unitsFrom, step, start, e1, e2, e3, a1, a2,
          a3, a4, b1, b2, b3, if_true, if_false, Nat.le_add_right, and_self, Nat.le_refl,
          Nat.add_sub_cancel_left, show ¬ (2 ≤ 1) by omega, Nat.reduceSub, a5, hc]
      · rename_i h1 h2 h3
        have e1 : (UInt8.ofNat (0xF0 + n / 262144)).toNat = 0xF0 + n / 262144 :=
          toNat_ofNat_of_lt (by omega)
        have e2 : (UInt8.ofNat (0x80 + n / 4096 % 64)).toNat = 0x80 + n / 4096 % 64 :=
          toNat_ofNat_of_lt (by omega)
        have e3 : (UInt8.ofNat (0x80 + n / 64 % 64)).toNat = 0x80 + n / 64 % 64 :=
          toNat_ofNat_of_lt (by omega)
        have e4 : (UInt8.ofNat (0x80 + n % 64)).toNat = 0x80 + n % 64 :=
          toNat_ofNat_of_lt (by omega)
        have a1 : ¬ 0xF0 + n / 262144 < 0x80 := by omega
        have a2 : ¬ 0xF0 + n / 262144 < 0xC2 := by omega
        have a3 : ¬ 0xF0 + n / 262144 < 0xE0 := by omega
        have a4 : ¬ 0xF0 + n / 262144 < 0xF0 := by omega
        have a6 : 0xF0 + n / 262144 < 0xF5 := by omega
        have b1 : (if 0xF0 + n / 262144 = 0xF0 then 0x90 else 0x80) ≤ 0x80 + n / 4096 % 64 := by
          split <;> omega
        have b2 : 0x80 + n / 4096 % 64 ≤ (if 0xF0 + n / 262144 = 0xF4 then 0x8F else 0xBF) := by
          split <;> omega
        have b3 : 0x80 + n % 64 ≤ 0xBF := by omega
        have b4 : 0x80 + n / 64 % 64 ≤ 0xBF := by omega
        have a5 : ((n / 262144 * 64 + n / 4096 % 64) * 64 + n / 64 % 64) * 64 + n % 64 = n := by
          omega
        simp only [List.cons_append, List.nil_append, unitsFrom, step, start, e1, e2, e3, e4, a1,
          a2, a3, a4, a6, b1, b2, b3, b4, if_true, if_false, Nat.le_add_right, and_self,
          Nat.le_refl, Nat.add_sub_cancel_left, show ¬ (3 ≤ 1) by omega,
          show ¬ (2 ≤ 1) by omega, Nat.reduceSub, a5, hc]

/-- The encoding of a text decodes to its characters, none malformed. -/
theorem units_encode (t : Text) : units (encode t) = t.map some := by
  unfold units
  induction t with
  | nil => rfl
  | cons c cs ih =>
    rw [encode, List.flatMap_cons, unitsFrom_encodeChar]
    simpa [encode] using ih

/-- Lenient decoding undoes encoding. -/
theorem lenient_encode (t : Text) : lenient (encode t) = t := by
  simp [lenient, units_encode, Function.comp_def]

/-- Strict decoding undoes encoding. -/
theorem strict_encode (t : Text) : strict? (encode t) = some t := by
  rw [strict?, units_encode]
  induction t with
  | nil => rfl
  | cons c cs ih => simp_all [List.mapM_cons]

end Utf8

end FishCheck
