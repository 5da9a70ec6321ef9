import FishCheck.Version
import Mathlib.Data.List.Basic

/-!
# Version lines

A version line is a name, `, version ` and a version number, followed by nothing or by a
blank; name and number are words, neither empty nor with a blank in them.  The first word of
such a line is the name with its comma, so there is one way to read it.

Main results:

- Theorem `ofLine_eq_some_iff`: a version is read from a line exactly when the line is a
  version line of it.
- Theorem `read_eq_some_iff`: the version of a text is that of its first version line.
- Theorem `conclude_eq_ok_iff`: what the probe of a checker finds.
-/

namespace FishCheck

namespace Text

/-! ## Words -/

/-- A text without blanks. -/
def IsWord (t : Text) : Prop := ∀ c ∈ t, isBlank c = false

/-- Whether a text is empty or starts with a blank, so that a word before it ends there. -/
def EndsWord (t : Text) : Prop := ∀ c ∈ t.head?, isBlank c = true

instance (t : Text) : Decidable (IsWord t) :=
  List.decidableBAll (fun c => isBlank c = false) t

instance (t : Text) : Decidable (EndsWord t) :=
  decidable_of_iff (t.head?.all isBlank = true) (Option.all_eq_true isBlank t.head?)

/-- At the end of a text a word ends. -/
theorem endsWord_nil : EndsWord [] := fun c hc => absurd hc (Option.not_mem_none c)

/-- A text is cut at its first blank exactly when a word stands before the cut and ends
there. -/
theorem cut_iff {t word rest : Text} :
    t.takeWhile (!isBlank ·) = word ∧ t.dropWhile (!isBlank ·) = rest ↔
      t = word ++ rest ∧ IsWord word ∧ EndsWord rest := by
  constructor
  · rintro ⟨rfl, rfl⟩
    refine ⟨List.takeWhile_append_dropWhile.symm, fun c hc => ?_, fun c hc => ?_⟩
    · simpa using List.all_eq_true.1 List.all_takeWhile c hc
    · have hhead := List.head?_dropWhile_not (!isBlank ·) t
      rw [Option.mem_def.1 hc] at hhead
      simpa using hhead
  · rintro ⟨rfl, hword, hrest⟩
    have hall : ∀ c ∈ word, (!isBlank c) = true := fun c hc => by simp [hword c hc]
    rw [List.takeWhile_append_of_pos hall, List.dropWhile_append_of_pos hall]
    cases rest with
    | nil => simp
    | cons c cs =>
      have hc : isBlank c = true := hrest c rfl
      simp [hc]

end Text

namespace Version

/-! ## One line -/

/-- A line that spells a version, whatever follows it after a blank. -/
def IsLine (v : Version) (line : Text) : Prop :=
  (v.name ≠ [] ∧ Text.IsWord v.name) ∧ (v.number ≠ [] ∧ Text.IsWord v.number) ∧
    ∃ rest, Text.EndsWord rest ∧ line = v.toText ++ rest

theorem toText_eq (v : Version) : v.toText = (v.name ++ [',']) ++ (separator ++ v.number) := by
  have hcomma : ", version ".toList = [','] ++ separator := by decide
  have htext : v.toText = v.name ++ ", version ".toList ++ v.number := rfl
  rw [htext, hcomma]
  simp only [List.append_assoc]

/-- The separator ends a word, since a blank leads it. -/
theorem endsWord_separator (t : Text) : Text.EndsWord (separator ++ t) := by
  have hfront : separator = ' ' :: separator.tail := by decide
  intro c hc
  rw [hfront] at hc
  rw [← Option.some.inj hc]
  decide

/-- A version is read from a line exactly when the line is a version line of it. -/
theorem ofLine_eq_some_iff {v : Version} {line : Text} :
    ofLine? line = some v ↔ v.IsLine line := by
  obtain ⟨name, number⟩ := v
  constructor
  · intro h
    simp only [ofLine?, Option.bind_eq_bind, Option.bind_eq_some_iff,
      List.isPrefixOf?_eq_some_iff_append_eq, Option.ite_none_right_eq_some,
      Option.some.injEq, Version.mk.injEq] at h
    obtain ⟨rest, hrest, ⟨hcomma, hlength, hnumber⟩, hname, hword⟩ := h
    obtain ⟨hline, hfirst, -⟩ := Text.cut_iff.1 ⟨rfl, hrest.symm⟩
    obtain ⟨hcut, hsecond, hend⟩ := Text.cut_iff.1 ⟨hword, rfl⟩
    obtain ⟨front, hfront⟩ := List.getLast?_eq_some_iff.1 hcomma
    rw [hfront, List.dropLast_concat] at hname
    rw [hfront] at hline hfirst hlength
    rw [hword] at hnumber
    rw [hname] at hline hfirst hlength
    refine ⟨⟨fun hempty => ?_, fun c hc => hfirst c (List.mem_append_left _ hc)⟩,
      ⟨hnumber, hsecond⟩, _, hend, ?_⟩
    · dsimp only at hempty
      rw [hempty] at hlength
      exact absurd hlength (by decide)
    · calc line
        _ = (name ++ [',']) ++ (separator ++ rest) := hline
        _ = (name ++ [',']) ++ (separator ++ (number ++ rest.dropWhile (!Text.isBlank ·))) := by
          rw [← hcut]
        _ = toText ⟨name, number⟩ ++ rest.dropWhile (!Text.isBlank ·) := by
          rw [toText_eq]
          simp only [List.append_assoc]
  · rintro ⟨⟨hname, hword⟩, ⟨hnumber, hdigits⟩, rest, hend, rfl⟩
    dsimp only at hname hword hnumber hdigits
    have hfirst : Text.IsWord (name ++ [',']) := by
      intro c hc
      rcases List.mem_append.1 hc with hc | hc
      · exact hword c hc
      · rw [List.mem_singleton.1 hc]
        decide
    have hline : toText ⟨name, number⟩ ++ rest =
        (name ++ [',']) ++ (separator ++ (number ++ rest)) := by
      rw [toText_eq]
      simp only [List.append_assoc]
    obtain ⟨htake, hdrop⟩ := Text.cut_iff.2 ⟨hline, hfirst, endsWord_separator _⟩
    have hbehind : separator.isPrefixOf? (separator ++ (number ++ rest)) = some (number ++ rest) :=
      List.isPrefixOf?_eq_some_iff_append_eq.2 rfl
    have hcut := (Text.cut_iff.2 ⟨rfl, hdigits, hend⟩).1
    have hlast : (name ++ [',']).getLast? = some ',' := List.getLast?_concat
    have hlength : 1 < (name ++ [',']).length := by
      rw [List.length_append]
      exact Nat.lt_add_of_pos_left (List.length_pos_iff.2 hname)
    simp only [ofLine?, htake, hdrop, hbehind, Option.bind_eq_bind, Option.bind_some, hcut]
    rw [if_pos ⟨hlast, hlength, hnumber⟩, List.dropLast_concat]

/-- A line spells at most one version. -/
theorem IsLine.unique {v w : Version} {line : Text} (hv : v.IsLine line) (hw : w.IsLine line) :
    v = w := by
  rw [← ofLine_eq_some_iff] at hv hw
  exact Option.some.inj (hv.symm.trans hw)

theorem ofLine_eq_none_iff {line : Text} : ofLine? line = none ↔ ∀ v : Version, ¬ v.IsLine line := by
  simp only [← ofLine_eq_some_iff, Option.eq_none_iff_forall_ne_some, ne_eq]

/-! ## Texts -/

/-- The version of a text is that of its first version line. -/
theorem read_eq_some_iff {t : Text} {v : Version} :
    read? t = some v ↔ ∃ front line back, Text.pieces t = front ++ line :: back ∧
      v.IsLine line ∧ ∀ earlier ∈ front, ∀ w : Version, ¬ w.IsLine earlier := by
  simp only [read?, List.findSome?_eq_some_iff, ofLine_eq_some_iff, ofLine_eq_none_iff]

/-- A text has a version exactly when one of its lines is a version line. -/
theorem exists_read_iff {t : Text} :
    (∃ v, read? t = some v) ↔ ∃ line ∈ Text.pieces t, ∃ v : Version, v.IsLine line := by
  rw [← Option.isSome_iff_exists, read?, List.isSome_findSome?, List.any_eq_true]
  simp only [Option.isSome_iff_exists, ofLine_eq_some_iff]

/-! ## Probes -/

/-- What the probe of a checker finds: the version of its output, or else the one of its error
output, whatever the exit code. -/
theorem conclude_eq_ok_iff {s : Settings} {outcome : Outcome} {v : Version} :
    conclude s outcome = .ok v ↔ ∃ c, outcome = .ok c ∧
      (read? c.stdout = some v ∨ read? c.stdout = none ∧ read? c.stderr = some v) := by
  cases outcome with
  | error f => simp [conclude]
  | ok c =>
    have hfound : conclude s (.ok c) = .ok v ↔ (read? c.stdout <|> read? c.stderr) = some v := by
      rw [conclude]
      split
      · rename_i w hw
        rw [hw]
        simp
      · rename_i hnone
        simp [hnone]
    rw [hfound]
    cases hout : read? c.stdout <;> simp [hout]

end Version

end FishCheck
