import FishCheck.Text.Utf8

/-!
# Percent encoding

A URL writes the bytes it cannot hold as they are as a percent sign and two
hexadecimal digits. Which bytes those are depends on the part of the URL; bytes
beyond ASCII are always written that way.

Main results:

- Theorem `decode_encode`: decoding undoes encoding, whatever the set, as long as the
  set has the percent sign in it.
-/

namespace FishCheck

namespace Percent

/-! ## Sets of ASCII bytes to encode -/

/-- A set of ASCII bytes that a part of a URL encodes. -/
abbrev Set := UInt8 → Bool

/-- The control bytes. -/
def controls : Set := fun b => b < 0x20 || b == 0x7F

/-- Encoded in fragments: controls, space, and the characters that quote or bracket. -/
def fragment : Set := fun b =>
  controls b || b == 0x20 || b == 0x22 || b == 0x3C || b == 0x3E || b == 0x60

/-- Encoded in queries. -/
def query : Set := fun b =>
  controls b || b == 0x20 || b == 0x22 || b == 0x23 || b == 0x3C || b == 0x3E

/-- Encoded in the queries of special schemes: the apostrophe too. -/
def specialQuery : Set := fun b => query b || b == 0x27

/-- Encoded in paths. -/
def path : Set := fun b => fragment b || b == 0x23 || b == 0x3F || b == 0x7B || b == 0x7D

/-- Encoded in user names and passwords. -/
def userInfo : Set := fun b =>
  path b || b == 0x2F || b == 0x3A || b == 0x3B || b == 0x3D || b == 0x40 || b == 0x5B ||
    b == 0x5C || b == 0x5D || b == 0x5E || b == 0x7C

/-- Encoded in one component of a path: what separates components and what starts an
escape as well. -/
def component : Set := fun b => path b || b == 0x2F || b == 0x25 || b == 0x5C

/-! ## Encoding -/

/-- A hexadecimal digit in upper case. -/
def digit (n : Nat) : Char :=
  if n < 10 then Char.ofNat (0x30 + n) else Char.ofNat (0x41 + (n - 10))

/-- One byte, escaped if it is in the set or beyond ASCII. -/
def encodeByte (set : Set) (b : UInt8) : Text :=
  if 0x80 ≤ b.toNat ∨ set b = true then ['%', digit (b.toNat / 16), digit (b.toNat % 16)]
  else [Char.ofNat b.toNat]

/-- A byte sequence, escaped where the set asks for it. -/
def encode (set : Set) (bs : Bytes) : Text := bs.flatMap (encodeByte set)

/-- A text, encoded in UTF-8 and escaped where the set asks for it. -/
def encodeText (set : Set) (t : Text) : Text := encode set (Utf8.encode t)

/-! ## Decoding -/

/-- The value of a hexadecimal digit of either case. -/
def digitValue? (c : Char) : Option Nat :=
  if '0' ≤ c ∧ c ≤ '9' then some (c.toNat - 0x30)
  else if 'A' ≤ c ∧ c ≤ 'F' then some (c.toNat - 0x41 + 10)
  else if 'a' ≤ c ∧ c ≤ 'f' then some (c.toNat - 0x61 + 10)
  else none

/-- The bytes of an escaped text; a percent sign that starts no escape stands for
itself. -/
def decode : Text → Bytes
  | [] => []
  | '%' :: a :: b :: rest =>
    match digitValue? a, digitValue? b with
    | some x, some y => UInt8.ofNat (16 * x + y) :: decode rest
    | _, _ => 0x25 :: decode (a :: b :: rest)
  | c :: rest => Utf8.encodeChar c ++ decode rest
termination_by t => t.length

/-! ## Decoding undoes encoding -/

theorem digitValue_digit {n : Nat} (h : n < 16) : digitValue? (digit n) = some n := by
  have : ∀ m : Fin 16, digitValue? (digit m.val) = some m.val := by decide
  exact this ⟨n, h⟩

theorem decode_cons_ne {c : Char} (h : c ≠ '%') (rest : Text) :
    decode (c :: rest) = Utf8.encodeChar c ++ decode rest := by
  rw [decode]
  intros
  exact h ‹_›

theorem encodeChar_ofNat {n : Nat} (h : n < 0x80) :
    Utf8.encodeChar (Char.ofNat n) = [UInt8.ofNat n] := by
  have hv : n.isValidChar := Or.inl (by omega)
  have hn : (Char.ofNat n).toNat = n := Text.charToNat_ofNat hv
  simp only [Utf8.encodeChar, hn, h, if_true]

theorem encode_cons (set : Set) (b : UInt8) (bs : Bytes) :
    encode set (b :: bs) = encodeByte set b ++ encode set bs := rfl

/-- Decoding undoes encoding when the percent sign is encoded. -/
theorem decode_encode {set : Set} (hset : set 0x25 = true) (bs : Bytes) :
    decode (encode set bs) = bs := by
  induction bs with
  | nil => simp [encode, decode]
  | cons b bs ih =>
    have hlt : b.toNat < 256 := UInt8.toNat_lt b
    have hb : UInt8.ofNat b.toNat = b := UInt8.ofNat_toNat
    rw [encode_cons]
    by_cases h : 0x80 ≤ b.toNat ∨ set b = true
    · rw [encodeByte, if_pos h]
      simp only [List.cons_append, List.nil_append]
      rw [decode]
      simp only [digitValue_digit (show b.toNat / 16 < 16 by omega),
        digitValue_digit (show b.toNat % 16 < 16 by omega),
        show 16 * (b.toNat / 16) + b.toNat % 16 = b.toNat by omega, hb, ih]
    · have h' : ¬0x80 ≤ b.toNat ∧ ¬set b = true := not_or.mp h
      have hne : Char.ofNat b.toNat ≠ '%' := by
        intro hc
        have h1 := encodeChar_ofNat (n := b.toNat) (by omega)
        have h3 : Utf8.encodeChar '%' = [UInt8.ofNat 0x25] := rfl
        rw [hc, h3, hb] at h1
        have he : UInt8.ofNat 0x25 = b := (List.cons.inj h1).1
        exact h'.2 (he ▸ hset)
      rw [encodeByte, if_neg h]
      simp only [List.cons_append, List.nil_append]
      rw [decode_cons_ne hne, encodeChar_ofNat (by omega), hb, ih]
      rfl

end Percent

end FishCheck
