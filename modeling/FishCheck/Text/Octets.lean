import FishCheck.Text.Utf8

/-!
# Bytes as characters

Tools that run on a host know no encoding: they read and write bytes. To cut and
compare them like text, each byte is seen as the character with its number.

Main results:

- Theorem `toBytes_ofBytes`: seeing bytes as characters loses nothing.
-/

namespace FishCheck

namespace Octets

/-- The characters that bytes are seen as. -/
def ofBytes (bs : Bytes) : Text := bs.map fun b => Char.ofNat b.toNat

/-- The bytes that were seen as characters. -/
def toBytes (t : Text) : Bytes := t.map fun c => UInt8.ofNat c.toNat

/-- The bytes of a text, seen as characters. -/
def ofText (t : Text) : Text := ofBytes (Utf8.encode t)

/-- Seeing bytes as characters loses nothing. -/
theorem toBytes_ofBytes (bs : Bytes) : toBytes (ofBytes bs) = bs := by
  induction bs with
  | nil => rfl
  | cons b bs ih =>
    have hv : b.toNat.isValidChar := by
      have := b.toNat_lt
      exact Or.inl (by omega)
    have hc : (Char.ofNat b.toNat).toNat = b.toNat := Text.charToNat_ofNat hv
    simp_all [ofBytes, toBytes]

end Octets

end FishCheck
