/-!
# Text

Everything the tools read, print and compare is text: a list of Unicode
characters. This module fixes that type, the decimal writing of numbers, and the
cut of a text at its line feeds that documents and checker output share.

Main results:

- Theorem `pieces_join`: joining the pieces of a text with line feeds gives the
  text back.
- Theorem `length_pieces`: there is one piece more than there are line feeds.
- Theorem `not_mem_of_mem_pieces`: no piece holds a line feed.
- Theorem `dropReturn_eq_iff`: what is left of a text without a carriage return at its end.
- Theorem `isPrefixOf?_eq_some_iff`: taking a text off the front of another one leaves
  what has to follow it.
-/

namespace FishCheck

/-- A text is a list of Unicode characters. -/
abbrev Text := List Char

/-- A string literal stands for the list of its characters. -/
instance : Coe String Text := ⟨String.toList⟩

namespace Text

/-! ## Pieces between line feeds -/

/-- Puts a character in front of the first piece. -/
def consPiece (c : Char) : List Text → List Text
  | [] => [[c]]
  | p :: ps => (c :: p) :: ps

/-- Cuts a text at its line feeds; a text without one is a single piece. -/
def pieces : Text → List Text
  | [] => [[]]
  | c :: cs => if c = '\n' then [] :: pieces cs else consPiece c (pieces cs)

/-- Removes one carriage return at the end of a text. -/
def dropReturn (t : Text) : Text :=
  if t.getLast? = some '\r' then t.dropLast else t

/-- Joins pieces with a line feed between neighbours. -/
def joinLines (ps : List Text) : Text :=
  ['\n'].intercalate ps

theorem pieces_ne_nil (t : Text) : pieces t ≠ [] := by
  cases t with
  | nil => simp [pieces]
  | cons c cs =>
    by_cases h : c = '\n'
    · simp [pieces, h]
    · cases hp : pieces cs <;> simp [pieces, h, hp, consPiece]

/-- The number of pieces is the number of line feeds plus one. -/
theorem length_pieces (t : Text) : (pieces t).length = t.count '\n' + 1 := by
  induction t with
  | nil => rfl
  | cons c cs ih =>
    by_cases h : c = '\n'
    · simp [pieces, h, ih]
    · cases hp : pieces cs with
      | nil => exact absurd hp (pieces_ne_nil cs)
      | cons p ps => simp_all [pieces, consPiece]

/-- A piece never holds a line feed. -/
theorem not_mem_of_mem_pieces {t p : Text} (h : p ∈ pieces t) : '\n' ∉ p := by
  induction t generalizing p with
  | nil => simp_all [pieces]
  | cons c cs ih =>
    by_cases hc : c = '\n'
    · simp [pieces, hc] at h
      rcases h with rfl | h
      · simp
      · exact ih h
    · cases hp : pieces cs with
      | nil => exact absurd hp (pieces_ne_nil cs)
      | cons q qs =>
        simp [pieces, hc, hp, consPiece] at h
        rcases h with rfl | h
        · have := ih (p := q) (by simp [hp])
          simp [this, Ne.symm hc]
        · exact ih (by simp [hp, h])

/-- Joining the pieces of a text gives the text back. -/
theorem pieces_join (t : Text) : joinLines (pieces t) = t := by
  induction t with
  | nil => rfl
  | cons c cs ih =>
    by_cases h : c = '\n'
    · cases hp : pieces cs with
      | nil => exact absurd hp (pieces_ne_nil cs)
      | cons q qs =>
        rw [hp] at ih
        simp_all [pieces, joinLines, List.intercalate]
    · cases hp : pieces cs with
      | nil => exact absurd hp (pieces_ne_nil cs)
      | cons q qs =>
        rw [hp] at ih
        cases qs <;> simp_all [pieces, joinLines, consPiece, List.intercalate]

/-- One carriage return at the end is removed, if there is one. -/
theorem dropReturn_eq_iff (t u : Text) :
    dropReturn t = u ↔ t = u ++ ['\r'] ∨ (t = u ∧ u.getLast? ≠ some '\r') := by
  unfold dropReturn
  split
  · rename_i hlast
    obtain ⟨v, rfl⟩ := List.getLast?_eq_some_iff.1 hlast
    rw [List.dropLast_concat]
    constructor
    · rintro rfl
      exact Or.inl rfl
    · rintro (heq | ⟨rfl, hno⟩)
      · exact List.append_cancel_right heq
      · exact absurd hlast hno
  · rename_i hlast
    constructor
    · rintro rfl
      exact Or.inr ⟨rfl, hlast⟩
    · rintro (rfl | ⟨rfl, -⟩)
      · simp at hlast
      · rfl

/-! ## Fronts of texts -/

@[simp] theorem isPrefixOf?_nil_left (t : Text) : ([] : Text).isPrefixOf? t = some t := rfl

@[simp] theorem isPrefixOf?_nil_right (c : Char) (cs : Text) :
    (c :: cs).isPrefixOf? [] = none := rfl

@[simp] theorem isPrefixOf?_cons (c d : Char) (cs ds : Text) :
    (c :: cs).isPrefixOf? (d :: ds) = if c = d then cs.isPrefixOf? ds else none := by
  change (if c == d then cs.isPrefixOf? ds else none) = _
  simp only [beq_iff_eq]

/-- Taking a text off the front of another one leaves what has to follow it. -/
theorem isPrefixOf?_eq_some_iff {p t rest : Text} :
    p.isPrefixOf? t = some rest ↔ t = p ++ rest := by
  induction p generalizing t with
  | nil => simp
  | cons c cs ih =>
    cases t with
    | nil => simp
    | cons d ds =>
      by_cases h : c = d
      · subst h
        simp [ih]
      · simp [h, Ne.symm h]

/-! ## Numbers -/

/-- The character of a valid number has that number. -/
theorem charToNat_ofNat {n : Nat} (h : n.isValidChar) : (Char.ofNat n).toNat = n := by
  unfold Char.ofNat
  rw [dif_pos h]
  rfl

/-- The sum of numbers. -/
def total (ns : List Nat) : Nat := ns.foldr (· + ·) 0

@[simp] theorem total_nil : total [] = 0 := rfl

@[simp] theorem total_cons (n : Nat) (ns : List Nat) : total (n :: ns) = n + total ns := rfl

@[simp] theorem total_append (ms ns : List Nat) : total (ms ++ ns) = total ms + total ns := by
  induction ms with
  | nil => simp
  | cons m ms ih => simp [ih, Nat.add_assoc]

/-! ## Numbers in decimal -/

/-- The decimal digit of a number below ten. -/
def digit (n : Nat) : Char := Char.ofNat ('0'.toNat + n)

/-- A natural number in decimal, without leading zeros. -/
def decimal (n : Nat) : Text :=
  if _ : n < 10 then [digit n] else decimal (n / 10) ++ [digit (n % 10)]
termination_by n
decreasing_by omega

/-- An integer in decimal, with a minus sign when it is negative. -/
def signedDecimal (i : Int) : Text :=
  if i < 0 then '-' :: decimal i.natAbs else decimal i.natAbs

/-- The value of an ASCII decimal digit. -/
def digitValue? (c : Char) : Option Nat :=
  if '0' ≤ c ∧ c ≤ '9' then some (c.toNat - '0'.toNat) else none

/-- Reads ASCII digits onto a value read so far; anything else refuses the whole text. -/
def readDigits (value : Nat) : Text → Option Nat
  | [] => some value
  | c :: cs => (digitValue? c).bind fun d => readDigits (10 * value + d) cs

/-- Reads a non-empty run of ASCII digits as a number; leading zeros are allowed. -/
def natural? (t : Text) : Option Nat :=
  if t.isEmpty then none else readDigits 0 t

theorem readDigits_append (v : Nat) (s t : Text) :
    readDigits v (s ++ t) = (readDigits v s).bind fun w => readDigits w t := by
  induction s generalizing v with
  | nil => simp [readDigits]
  | cons c cs ih =>
    cases h : digitValue? c <;> simp [readDigits, h, ih]

theorem digitValue_digit (n : Nat) (h : n < 10) : digitValue? (digit n) = some n := by
  have : ∀ m : Fin 10, digitValue? (digit m.val) = some m.val := by decide
  exact this ⟨n, h⟩

theorem decimal_ne_nil (n : Nat) : decimal n ≠ [] := by
  unfold decimal
  split <;> simp

/-- Reading the decimal digits of a number from zero gives the number. -/
theorem readDigits_decimal (n : Nat) : readDigits 0 (decimal n) = some n := by
  induction n using Nat.strongRecOn with
  | ind n ih =>
    unfold decimal
    split
    · rename_i h
      simp [readDigits, digitValue_digit n h]
    · rename_i h
      rw [readDigits_append, ih (n / 10) (by omega)]
      simp [readDigits, digitValue_digit (n % 10) (by omega)]
      omega

/-- Reading a number's decimal writing gives the number back. -/
theorem natural_decimal (n : Nat) : natural? (decimal n) = some n := by
  simp [natural?, decimal_ne_nil, readDigits_decimal]

end Text

end FishCheck
