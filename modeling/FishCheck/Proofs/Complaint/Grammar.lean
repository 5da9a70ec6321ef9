import FishCheck.Complaint
import Mathlib.Data.Nat.Digits.Defs
import Mathlib.Tactic.Ring

/-!
# The grammar of complaints

A line of checker output is a complaint when it is a file, a marker with digits, and a
message, where the file is cut as short as possible and the digits spell a line number.
This module states that grammar without looking at how lines are read, and shows that
reading accepts exactly the lines of the grammar and takes from each what the grammar
says.

Main results:

- Theorem `firstMarker_eq_some_iff`: the cut of a line is the one with the shortest file.
- Theorem `natural_eq_some_iff`: digits are read at their positional value.
- Theorem `ofLine_eq_some_iff`: a line is read as a complaint exactly when it reports it.
- Theorem `pieces_eq_splitOn`: the lines of a text are its stretches between line feeds.
-/

namespace FishCheck

namespace Text

/-- The pieces of a text are its stretches between line feeds. -/
theorem pieces_eq_splitOn (t : Text) : pieces t = t.splitOn '\n' := by
  induction t with
  | nil => rfl
  | cons c cs ih =>
    rw [List.splitOn_cons_eq_if_modifyHead, pieces, ih]
    by_cases hc : c = '\n'
    · simp [hc]
    · cases hcs : List.splitOn '\n' cs with
      | nil => exact absurd hcs (List.splitOn_ne_nil _ _)
      | cons p ps => simp [hc, consPiece]

/-! ## Digits and their value -/

/-- The number that ASCII digits stand for, the most significant one first. -/
def value (digits : Text) : Nat :=
  Nat.ofDigits 10 (digits.reverse.map fun c => c.toNat - '0'.toNat)

theorem value_cons (c : Char) (cs : Text) :
    value (c :: cs) = (c.toNat - '0'.toNat) * 10 ^ cs.length + value cs := by
  unfold value
  rw [List.reverse_cons, List.map_append, Nat.ofDigits_append, List.length_map,
    List.length_reverse, List.map_singleton, Nat.ofDigits_singleton, Nat.mul_comm, Nat.add_comm]

/-- Reading digits onto a value appends them to it, and reads ASCII digits only. -/
theorem readDigits_eq_some_iff (before : Nat) (digits : Text) (n : Nat) :
    readDigits before digits = some n ↔
      (∀ c ∈ digits, '0' ≤ c ∧ c ≤ '9') ∧ n = before * 10 ^ digits.length + value digits := by
  induction digits generalizing before with
  | nil => simp [readDigits, value, eq_comm]
  | cons c cs ih =>
    by_cases hc : '0' ≤ c ∧ c ≤ '9'
    · have hshift : (10 * before + (c.toNat - '0'.toNat)) * 10 ^ cs.length + value cs =
          before * 10 ^ (c :: cs).length + value (c :: cs) := by
        rw [value_cons, List.length_cons, Nat.pow_succ]
        ring
      rw [readDigits, digitValue?, if_pos hc, Option.bind_some, ih, hshift]
      simp [hc]
    · rw [readDigits, digitValue?, if_neg hc, Option.bind_none]
      simp [hc]

/-- Digits are read at their positional value; leading zeros do not count. -/
theorem natural_eq_some_iff (digits : Text) (n : Nat) :
    natural? digits = some n ↔
      digits ≠ [] ∧ (∀ c ∈ digits, '0' ≤ c ∧ c ≤ '9') ∧ n = value digits := by
  unfold natural?
  by_cases h : digits = []
  · simp [h]
  · simp [h, readDigits_eq_some_iff]

end Text

namespace Complaint

/-! ## Marked lines -/

/-- A line is a file, a marker with decimal digits of any script, and the rest. -/
structure Marked (line file digits rest : Text) : Prop where
  file_ne_nil : file ≠ []
  digits_ne_nil : digits ≠ []
  decimal : ∀ c ∈ digits, Text.isDecimalDigit c = true
  line_eq : line = file ++ (opening ++ digits ++ closing ++ rest)

/-- A line is cut at its first marker: no other cut has a shorter file. -/
def FirstMarked (line file digits rest : Text) : Prop :=
  Marked line file digits rest ∧
    ∀ file' digits' rest', Marked line file' digits' rest' → file.length ≤ file'.length

/-- What a line reports: the file before its first marker, the number that the marker's
digits spell, and the message after it without a carriage return at its end. -/
def Reports (line : Text) (c : Complaint) : Prop :=
  ∃ digits rest, FirstMarked line c.file digits rest ∧
    (∀ d ∈ digits, '0' ≤ d ∧ d ≤ '9') ∧ c.line = Text.value digits ∧
    1 ≤ c.line ∧ c.line < 2 ^ 32 ∧
    (rest = c.message ++ ['\r'] ∨ (rest = c.message ∧ c.message.getLast? ≠ some '\r'))

/-! ## Reading marked lines -/

/-- A marker is read exactly when it stands at the front, with all its digits. -/
theorem marker_eq_some_iff {t digits rest : Text} :
    marker? t = some (digits, rest) ↔
      digits ≠ [] ∧ (∀ c ∈ digits, Text.isDecimalDigit c = true) ∧
        t = opening ++ digits ++ closing ++ rest := by
  constructor
  · intro h
    unfold marker? at h
    obtain ⟨afterOpening, hopening, h⟩ := Option.bind_eq_some_iff.1 h
    obtain ⟨afterClosing, hclosing, h⟩ := Option.bind_eq_some_iff.1 h
    have hsplit := List.takeWhile_append_dropWhile
      (p := Text.isDecimalDigit) (l := afterOpening)
    rw [Text.isPrefixOf?_eq_some_iff] at hopening hclosing
    simp only [List.isEmpty_iff] at h
    split at h
    · cases h
    · rename_i hdigits
      obtain ⟨rfl, rfl⟩ := Prod.mk.inj (Option.some.inj h)
      refine ⟨hdigits, fun c hc => List.all_eq_true.1 List.all_takeWhile c hc, ?_⟩
      rw [hopening, List.append_assoc, List.append_assoc, ← hclosing, hsplit]
  · rintro ⟨hne, hdecimal, rfl⟩
    exact marker_append hne hdecimal rest

/-- A cut of a line either has a file of one character, or is a cut of the line behind
its first character. -/
theorem marked_cons_iff {c : Char} {cs file digits rest : Text} :
    Marked (c :: cs) file digits rest ↔
      (file = [c] ∧ marker? cs = some (digits, rest)) ∨
        ∃ file', file = c :: file' ∧ Marked cs file' digits rest := by
  constructor
  · rintro ⟨hfile, hdigits, hdecimal, hline⟩
    cases file with
    | nil => exact absurd rfl hfile
    | cons c' file' =>
      obtain ⟨rfl, hcs⟩ := List.cons.inj hline
      cases file' with
      | nil => exact Or.inl ⟨rfl, marker_eq_some_iff.2 ⟨hdigits, hdecimal, hcs⟩⟩
      | cons d ds => exact Or.inr ⟨d :: ds, rfl, List.cons_ne_nil d ds, hdigits, hdecimal, hcs⟩
  · rintro (⟨rfl, hmarker⟩ | ⟨file', rfl, hfile, hdigits, hdecimal, rfl⟩)
    · obtain ⟨hdigits, hdecimal, rfl⟩ := marker_eq_some_iff.1 hmarker
      exact ⟨List.cons_ne_nil c [], hdigits, hdecimal, rfl⟩
    · exact ⟨List.cons_ne_nil c file', hdigits, hdecimal, rfl⟩

/-- A marker right behind the first character is the first marker of the line. -/
theorem firstMarked_cons_of_marker {c : Char} {cs digits rest : Text}
    (hmarker : marker? cs = some (digits, rest)) (file digits' rest' : Text) :
    FirstMarked (c :: cs) file digits' rest' ↔ file = [c] ∧ digits' = digits ∧ rest' = rest := by
  have hshort : Marked (c :: cs) [c] digits rest := marked_cons_iff.2 (Or.inl ⟨rfl, hmarker⟩)
  constructor
  · rintro ⟨hmarked, hleast⟩
    rcases marked_cons_iff.1 hmarked with ⟨rfl, hmarker'⟩ | ⟨file', rfl, hmarked'⟩
    · rw [hmarker] at hmarker'
      obtain ⟨rfl, rfl⟩ := Prod.mk.inj (Option.some.inj hmarker')
      exact ⟨rfl, rfl, rfl⟩
    · -- a longer file is not the shortest
      have hpos : 0 < file'.length := List.length_pos_iff.2 hmarked'.file_ne_nil
      have hle := hleast [c] digits rest hshort
      rw [List.length_cons, List.length_singleton] at hle
      omega
  · rintro ⟨rfl, rfl, rfl⟩
    exact ⟨hshort, fun _ _ _ hother => List.length_pos_iff.2 hother.file_ne_nil⟩

/-- Without a marker right behind the first character, the first marker of the line is the
first marker behind that character. -/
theorem firstMarked_cons_of_none {c : Char} {cs : Text} (hmarker : marker? cs = none)
    (file digits rest : Text) :
    FirstMarked (c :: cs) file digits rest ↔
      ∃ file', file = c :: file' ∧ FirstMarked cs file' digits rest := by
  have hcut : ∀ file digits rest, Marked (c :: cs) file digits rest ↔
      ∃ file', file = c :: file' ∧ Marked cs file' digits rest := by
    intro file digits rest
    rw [marked_cons_iff, hmarker]
    simp
  constructor
  · rintro ⟨hmarked, hleast⟩
    obtain ⟨file', rfl, hmarked'⟩ := (hcut _ _ _).1 hmarked
    refine ⟨file', rfl, hmarked', fun other digits' rest' hother => ?_⟩
    have hle := hleast (c :: other) digits' rest' ((hcut _ _ _).2 ⟨other, rfl, hother⟩)
    exact Nat.le_of_succ_le_succ hle
  · rintro ⟨file', rfl, hmarked, hleast⟩
    refine ⟨(hcut _ _ _).2 ⟨file', rfl, hmarked⟩, fun other digits' rest' hother => ?_⟩
    obtain ⟨other', rfl, hother'⟩ := (hcut _ _ _).1 hother
    exact Nat.succ_le_succ (hleast other' digits' rest' hother')

/-- A line is cut exactly at its first marker. -/
theorem firstMarker_eq_some_iff (line file digits rest : Text) :
    firstMarker? line = some (file, digits, rest) ↔ FirstMarked line file digits rest := by
  induction line generalizing file with
  | nil =>
    refine ⟨fun h => absurd h (by simp [firstMarker?]), fun h => ?_⟩
    have hnil := h.1.line_eq
    rw [eq_comm, List.append_eq_nil_iff] at hnil
    exact absurd hnil.1 h.1.file_ne_nil
  | cons c cs ih =>
    cases hmarker : marker? cs with
    | none =>
      simp only [firstMarker?, hmarker, firstMarked_cons_of_none hmarker, ← ih,
        Option.map_eq_some_iff, Prod.exists, Prod.mk.injEq]
      constructor
      · rintro ⟨file', digits', rest', hcut, rfl, rfl, rfl⟩
        exact ⟨file', rfl, hcut⟩
      · rintro ⟨file', rfl, hcut⟩
        exact ⟨file', digits, rest, hcut, rfl, rfl, rfl⟩
    | some found =>
      obtain ⟨digits', rest'⟩ := found
      simp only [firstMarker?, hmarker, firstMarked_cons_of_marker hmarker, Option.some.injEq,
        Prod.mk.injEq]
      constructor
      · rintro ⟨rfl, rfl, rfl⟩
        exact ⟨rfl, rfl, rfl⟩
      · rintro ⟨rfl, rfl, rfl⟩
        exact ⟨rfl, rfl, rfl⟩

/-- Digits are a line number when they are ASCII digits with a value in the range. -/
theorem lineNumber_eq_some_iff (digits : Text) (hne : digits ≠ []) (n : Nat) :
    lineNumber? digits = some n ↔
      (∀ d ∈ digits, '0' ≤ d ∧ d ≤ '9') ∧ n = Text.value digits ∧ 1 ≤ n ∧ n < 2 ^ 32 := by
  have hrange : (decide (1 ≤ n) && decide (n ≤ maxLine)) = true ↔ 1 ≤ n ∧ n < 2 ^ 32 := by
    rw [Bool.and_eq_true, decide_eq_true_iff, decide_eq_true_iff, maxLine]
    omega
  rw [lineNumber?, Option.filter_eq_some_iff, Text.natural_eq_some_iff, hrange]
  simp only [ne_eq, hne, not_false_eq_true, true_and, and_assoc]

/-- A line is read as a complaint exactly when it reports that complaint. -/
theorem ofLine_eq_some_iff (line : Text) (c : Complaint) :
    ofLine? line = some c ↔ Reports line c := by
  constructor
  · intro h
    unfold ofLine? at h
    obtain ⟨⟨file, digits, rest⟩, hcut, h⟩ := Option.bind_eq_some_iff.1 h
    obtain ⟨number, hnumber, h⟩ := Option.bind_eq_some_iff.1 h
    have hfirst := (firstMarker_eq_some_iff line file digits rest).1 hcut
    obtain ⟨hascii, hvalue, hrange⟩ :=
      (lineNumber_eq_some_iff digits hfirst.1.digits_ne_nil number).1 hnumber
    obtain rfl := Option.some.inj h
    exact ⟨digits, rest, hfirst, hascii, hvalue, hrange.1, hrange.2,
      (Text.dropReturn_eq_iff rest (Text.dropReturn rest)).1 rfl⟩
  · rintro ⟨digits, rest, hfirst, hascii, hvalue, hpos, hlt, hmessage⟩
    have hcut := (firstMarker_eq_some_iff line c.file digits rest).2 hfirst
    have hnumber := (lineNumber_eq_some_iff digits hfirst.1.digits_ne_nil c.line).2
      ⟨hascii, hvalue, hpos, hlt⟩
    have hdrop := (Text.dropReturn_eq_iff rest c.message).2 hmessage
    simp only [ofLine?, hcut, hnumber, hdrop, Option.bind_eq_bind, Option.bind_some]
    rfl

end Complaint

end FishCheck
