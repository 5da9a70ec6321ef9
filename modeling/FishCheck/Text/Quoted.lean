import FishCheck.Text.Printable

/-!
# Quoted text

Messages show tool output between double quotes, with everything that would not
print as itself written as an escape: a few by a letter, the rest by code point.

Main results:

- Theorem `quote_plain`: a text of plain characters is shown as it is.
-/

namespace FishCheck

namespace Text

/-- The hexadecimal digit of a number below sixteen, in lower case. -/
def hexDigit (n : Nat) : Char :=
  if n < 10 then Char.ofNat ('0'.toNat + n) else Char.ofNat ('a'.toNat + (n - 10))

/-- A number in hexadecimal, without leading zeros. -/
def hexadecimal (n : Nat) : Text :=
  if _ : n < 16 then [hexDigit n] else hexadecimal (n / 16) ++ [hexDigit (n % 16)]
termination_by n
decreasing_by omega

/-- A character inside a quoted text. -/
def quoteChar (c : Char) : Text :=
  if c = '\x00' then "\\0"
  else if c = '\t' then "\\t"
  else if c = '\r' then "\\r"
  else if c = '\n' then "\\n"
  else if c = '"' then "\\\""
  else if c = '\\' then "\\\\"
  else if isGraphemeExtend c || !isPrintable c then "\\u\x7b" ++ hexadecimal c.toNat ++ "\x7d"
  else [c]

/-- A text between double quotes, with escapes where a character does not print. -/
def quote (t : Text) : Text :=
  '"' :: (t.flatMap quoteChar ++ ['"'])

/-- Whether a character is shown as it is inside a quoted text. -/
def isPlain (c : Char) : Bool :=
  c != '"' && c != '\\' && isPrintable c && !isGraphemeExtend c

theorem quoteChar_plain {c : Char} (h : isPlain c = true) : quoteChar c = [c] := by
  have control : isPrintable '\x00' = false ∧ isPrintable '\t' = false ∧ isPrintable '\r' = false ∧
      isPrintable '\n' = false := by decide
  simp only [isPlain, Bool.and_eq_true, bne_iff_ne, Bool.not_eq_true'] at h
  obtain ⟨⟨⟨h1, h2⟩, h3⟩, h4⟩ := h
  have n0 : c ≠ '\x00' := by rintro rfl; simp [control.1] at h3
  have n1 : c ≠ '\t' := by rintro rfl; simp [control.2.1] at h3
  have n2 : c ≠ '\r' := by rintro rfl; simp [control.2.2.1] at h3
  have n3 : c ≠ '\n' := by rintro rfl; simp [control.2.2.2] at h3
  simp [quoteChar, h1, h2, h3, h4, n0, n1, n2, n3]

/-- A text of plain characters is shown as it is. -/
theorem quote_plain {t : Text} (h : ∀ c ∈ t, isPlain c = true) : quote t = '"' :: (t ++ ['"']) := by
  have hf : t.flatMap quoteChar = t := by
    induction t with
    | nil => rfl
    | cons c cs ih =>
      simp only [List.mem_cons, forall_eq_or_imp] at h
      simp [List.flatMap_cons, quoteChar_plain h.1, ih h.2]
  simp [quote, hf]

end Text

end FishCheck
