import FishCheck.Text.Utf8

/-!
# What decoding accepts

Decoding undoes encoding; this module shows that nothing else is decoded.  A character
comes out of the decoder only after exactly the bytes that encode it, so a byte sequence
without a malformed stretch is the encoding of its characters and of no other text.

Main results:

- Theorem `unitsFrom_idle_cons`: a character that is decoded first stands first in its
  encoding.
- Theorem `strict_eq_some_iff`: strict decoding accepts exactly the encodings of texts.
- Theorem `encode_lenient_eq_iff`: lenient decoding keeps exactly the encodings of texts.
-/

namespace FishCheck

namespace Utf8

/-! ## Bytes of one character -/

/-- A decoder within a character that has one byte left takes that byte and gives the
character. -/
theorem unitsFrom_within_one {low high value : Nat} {bs : Bytes} {c : Char}
    {us : List (Option Char)} (h : unitsFrom (.within 1 low high value) bs = some c :: us) :
    ∃ b rest, bs = b :: rest ∧ low ≤ b.toNat ∧ b.toNat ≤ high ∧
      c = Char.ofNat (value * 64 + (b.toNat - 0x80)) ∧ unitsFrom .idle rest = us := by
  cases bs with
  | nil => simp [unitsFrom] at h
  | cons b rest =>
    rw [unitsFrom, step] at h
    by_cases hb : low ≤ b.toNat ∧ b.toNat ≤ high
    · simp only [hb, and_self, if_true, Nat.le_refl, List.singleton_append, List.cons.injEq,
        Option.some.injEq] at h
      exact ⟨b, rest, rfl, hb.1, hb.2, h.1.symm, h.2⟩
    · simp [hb] at h

/-- A decoder within a character that has more bytes left takes one of them. -/
theorem unitsFrom_within_succ {due low high value : Nat} {bs : Bytes} {c : Char}
    {us : List (Option Char)}
    (h : unitsFrom (.within (due + 2) low high value) bs = some c :: us) :
    ∃ b rest, bs = b :: rest ∧ low ≤ b.toNat ∧ b.toNat ≤ high ∧
      unitsFrom (.within (due + 1) 0x80 0xBF (value * 64 + (b.toNat - 0x80))) rest =
        some c :: us := by
  cases bs with
  | nil => simp [unitsFrom] at h
  | cons b rest =>
    rw [unitsFrom, step] at h
    by_cases hb : low ≤ b.toNat ∧ b.toNat ≤ high
    · have hdue : ¬ due + 2 ≤ 1 := by omega
      simp only [hb, and_self, if_true, hdue, if_false, List.nil_append] at h
      exact ⟨b, rest, rfl, hb.1, hb.2, h⟩
    · simp [hb] at h

/-- The bytes of the character of a number. -/
theorem encodeChar_ofNat_of_valid {n : Nat} (h : n.isValidChar) :
    encodeChar (Char.ofNat n) =
      if n < 0x80 then [UInt8.ofNat n]
      else if n < 0x800 then [UInt8.ofNat (0xC0 + n / 64), UInt8.ofNat (0x80 + n % 64)]
      else if n < 0x10000 then
        [UInt8.ofNat (0xE0 + n / 4096), UInt8.ofNat (0x80 + n / 64 % 64),
          UInt8.ofNat (0x80 + n % 64)]
      else
        [UInt8.ofNat (0xF0 + n / 262144), UInt8.ofNat (0x80 + n / 4096 % 64),
          UInt8.ofNat (0x80 + n / 64 % 64), UInt8.ofNat (0x80 + n % 64)] := by
  simp only [encodeChar, Text.charToNat_ofNat h]

/-- A byte is the byte of its number. -/
theorem ofNat_eq_of_toNat {b : UInt8} {n : Nat} (h : n = b.toNat) : UInt8.ofNat n = b := by
  rw [h, UInt8.ofNat_toNat]

/-- Two bytes that decode to a character encode it. -/
theorem encodeChar_two {a b : UInt8} (ha : 0xC2 ≤ a.toNat) (ha' : a.toNat < 0xE0)
    (hb : 0x80 ≤ b.toNat) (hb' : b.toNat ≤ 0xBF) :
    encodeChar (Char.ofNat ((a.toNat - 0xC0) * 64 + (b.toNat - 0x80))) = [a, b] := by
  generalize hn : (a.toNat - 0xC0) * 64 + (b.toNat - 0x80) = n
  have hvalid : n.isValidChar := Or.inl (by omega)
  rw [encodeChar_ofNat_of_valid hvalid, if_neg (by omega), if_pos (by omega),
    ofNat_eq_of_toNat (b := a) (by omega), ofNat_eq_of_toNat (b := b) (by omega)]

/-- Three bytes that decode to a character encode it. -/
theorem encodeChar_three {a b c : UInt8} (ha : 0xE0 ≤ a.toNat) (ha' : a.toNat < 0xF0)
    (hb : (if a.toNat = 0xE0 then 0xA0 else 0x80) ≤ b.toNat)
    (hb' : b.toNat ≤ if a.toNat = 0xED then 0x9F else 0xBF)
    (hc : 0x80 ≤ c.toNat) (hc' : c.toNat ≤ 0xBF) :
    encodeChar (Char.ofNat
      (((a.toNat - 0xE0) * 64 + (b.toNat - 0x80)) * 64 + (c.toNat - 0x80))) = [a, b, c] := by
  generalize hn : ((a.toNat - 0xE0) * 64 + (b.toNat - 0x80)) * 64 + (c.toNat - 0x80) = n
  have hlow : 0x800 ≤ n := by split at hb <;> omega
  -- the surrogates are the numbers that the bound behind 0xED leaves out
  have hvalid : n.isValidChar := by
    have hcases : n < 0xD800 ∨ (0xDFFF < n ∧ n < 0x110000) := by split at hb' <;> omega
    exact hcases
  have hb2 : 0x80 ≤ b.toNat ∧ b.toNat ≤ 0xBF := by
    constructor
    · split at hb <;> omega
    · split at hb' <;> omega
  rw [encodeChar_ofNat_of_valid hvalid, if_neg (by omega), if_neg (by omega), if_pos (by omega),
    ofNat_eq_of_toNat (b := a) (by omega), ofNat_eq_of_toNat (b := b) (by omega),
    ofNat_eq_of_toNat (b := c) (by omega)]

/-- Four bytes that decode to a character encode it. -/
theorem encodeChar_four {a b c d : UInt8} (ha : 0xF0 ≤ a.toNat) (ha' : a.toNat < 0xF5)
    (hb : (if a.toNat = 0xF0 then 0x90 else 0x80) ≤ b.toNat)
    (hb' : b.toNat ≤ if a.toNat = 0xF4 then 0x8F else 0xBF)
    (hc : 0x80 ≤ c.toNat) (hc' : c.toNat ≤ 0xBF) (hd : 0x80 ≤ d.toNat) (hd' : d.toNat ≤ 0xBF) :
    encodeChar (Char.ofNat
      ((((a.toNat - 0xF0) * 64 + (b.toNat - 0x80)) * 64 + (c.toNat - 0x80)) * 64 +
        (d.toNat - 0x80))) = [a, b, c, d] := by
  generalize hn : (((a.toNat - 0xF0) * 64 + (b.toNat - 0x80)) * 64 + (c.toNat - 0x80)) * 64 +
    (d.toNat - 0x80) = n
  have hlow : 0x10000 ≤ n := by split at hb <;> omega
  have hvalid : n.isValidChar := by
    have hcases : n < 0xD800 ∨ (0xDFFF < n ∧ n < 0x110000) := by split at hb' <;> omega
    exact hcases
  have hb2 : 0x80 ≤ b.toNat ∧ b.toNat ≤ 0xBF := by
    constructor
    · split at hb <;> omega
    · split at hb' <;> omega
  rw [encodeChar_ofNat_of_valid hvalid, if_neg (by omega), if_neg (by omega), if_neg (by omega),
    ofNat_eq_of_toNat (b := a) (by omega), ofNat_eq_of_toNat (b := b) (by omega),
    ofNat_eq_of_toNat (b := c) (by omega), ofNat_eq_of_toNat (b := d) (by omega)]

/-! ## Decoded texts -/

/-- A character that is decoded first stands first in its encoding. -/
theorem unitsFrom_idle_cons {bs : Bytes} {c : Char} {us : List (Option Char)}
    (h : unitsFrom .idle bs = some c :: us) :
    ∃ rest, bs = encodeChar c ++ rest ∧ unitsFrom .idle rest = us := by
  cases bs with
  | nil => simp [unitsFrom] at h
  | cons a rest =>
    rw [unitsFrom, step, start] at h
    by_cases h1 : a.toNat < 0x80
    · simp only [h1, if_true, List.singleton_append, List.cons.injEq, Option.some.injEq] at h
      obtain ⟨rfl, hrest⟩ := h
      refine ⟨rest, ?_, hrest⟩
      have hvalid : a.toNat.isValidChar := Or.inl (by omega)
      rw [encodeChar_ofNat_of_valid hvalid, if_pos h1, UInt8.ofNat_toNat, List.singleton_append]
    by_cases h2 : a.toNat < 0xC2
    · simp [h1, h2] at h
    by_cases h3 : a.toNat < 0xE0
    · simp only [h1, h2, h3, if_true, if_false, List.nil_append] at h
      obtain ⟨b, rest, rfl, hb, hb', hchar, hrest⟩ := unitsFrom_within_one h
      have henc := encodeChar_two (Nat.le_of_not_lt h2) h3 hb hb'
      rw [← hchar] at henc
      exact ⟨rest, by simp only [henc, List.cons_append, List.nil_append], hrest⟩
    by_cases h4 : a.toNat < 0xF0
    · simp only [h1, h2, h3, h4, if_true, if_false, List.nil_append] at h
      obtain ⟨b, rest, rfl, hb, hb', h⟩ := unitsFrom_within_succ h
      obtain ⟨d, rest, rfl, hd, hd', hchar, hrest⟩ := unitsFrom_within_one h
      have henc := encodeChar_three (Nat.le_of_not_lt h3) h4 hb hb' hd hd'
      rw [← hchar] at henc
      exact ⟨rest, by simp only [henc, List.cons_append, List.nil_append], hrest⟩
    by_cases h5 : a.toNat < 0xF5
    · simp only [h1, h2, h3, h4, h5, if_true, if_false, List.nil_append] at h
      obtain ⟨b, rest, rfl, hb, hb', h⟩ := unitsFrom_within_succ h
      obtain ⟨d, rest, rfl, hd, hd', h⟩ := unitsFrom_within_succ h
      obtain ⟨e, rest, rfl, he, he', hchar, hrest⟩ := unitsFrom_within_one h
      have henc := encodeChar_four (Nat.le_of_not_lt h4) h5 hb hb' hd hd' he he'
      rw [← hchar] at henc
      exact ⟨rest, by simp only [henc, List.cons_append, List.nil_append], hrest⟩
    · simp [h1, h2, h3, h4, h5] at h

/-- A step that ends between characters leaves something in the output. -/
theorem output_ne_nil_of_idle {p : Progress} {b : UInt8} (h : (step p b).1 = .idle) :
    (step p b).2 ≠ [] := by
  have hstart : (start b.toNat).1 = .idle → (start b.toNat).2 ≠ [] := by
    intro hidle
    unfold start at hidle ⊢
    grind
  cases p with
  | idle => exact hstart h
  | within due low high value =>
    simp only [step] at h ⊢
    grind

/-- Only the empty byte sequence decodes to nothing. -/
theorem eq_nil_of_unitsFrom_eq_nil {p : Progress} {bs : Bytes} (h : unitsFrom p bs = []) :
    p = .idle ∧ bs = [] := by
  induction bs generalizing p with
  | nil => cases p <;> simp_all [unitsFrom]
  | cons b rest ih =>
    rw [unitsFrom, List.append_eq_nil_iff] at h
    exact absurd h.1 (output_ne_nil_of_idle (ih h.2).1)

/-- Bytes are the encoding of a text when its characters are what they decode to. -/
theorem units_eq_map_some_iff (bs : Bytes) (t : Text) : units bs = t.map some ↔ bs = encode t := by
  constructor
  · intro h
    unfold units at h
    induction t generalizing bs with
    | nil => exact (eq_nil_of_unitsFrom_eq_nil h).2
    | cons c cs ih =>
      obtain ⟨rest, rfl, hrest⟩ := unitsFrom_idle_cons h
      rw [ih rest hrest]
      rfl
  · rintro rfl
    exact units_encode t

/-- Strict decoding accepts exactly the encodings of texts. -/
theorem strict_eq_some_iff (bs : Bytes) (t : Text) : strict? bs = some t ↔ bs = encode t := by
  have hall : ∀ us : List (Option Char), us.mapM id = some t ↔ us = t.map some := by
    intro us
    induction us generalizing t with
    | nil => cases t <;> simp
    | cons u us ih =>
      rw [List.mapM_cons]
      cases u with
      | none => cases t <;> simp
      | some c =>
        cases t with
        | nil => cases us.mapM id <;> simp
        | cons d ds =>
          have hrest := ih ds
          cases hus : us.mapM id <;> simp_all
  rw [strict?, hall, units_eq_map_some_iff]

/-- Lenient decoding keeps exactly the encodings of texts. -/
theorem encode_lenient_eq_iff (bytes : Bytes) :
    encode (lenient bytes) = bytes ↔ ∃ text, bytes = encode text := by
  constructor
  · intro h
    exact ⟨lenient bytes, h.symm⟩
  · rintro ⟨text, rfl⟩
    rw [lenient_encode]

end Utf8

end FishCheck
