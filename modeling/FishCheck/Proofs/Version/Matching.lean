import FishCheck.Proofs.Complaint.Lines
import FishCheck.Proofs.Text.LineSearch
import FishCheck.Proofs.Version.Lines

/-!
# Versions as matches of a pattern

The version of an output is what the first match of the multi-line pattern
`^(\S+), version (\S+)` in it captures.  The name may hold commas, and the comma behind it is no
blank either, so the first group has to go back by one character.  This module shows that the
matches of the pattern are the version lines, and that a version is read back from where it was
printed.

Main results:

- Theorem `first_versionLine_iff`: where a line starts, the pattern matches exactly the version
  lines.
- Theorem `read_eq_head_captures`: the version of a text is what the first match captures.
- Theorem `read_of_isLine`: a text that starts with a version line has its version.
- Theorem `version_read_back`: which version a text has, and that printing inverts reading.
-/

namespace FishCheck

namespace Version

open Search

/-! ## The pattern -/

/-- Any character but a blank. -/
def inWord (c : Char) : Bool := !Text.isBlank c

/-- What stands between the name and the version. -/
def mark : Text := ", version "

/-- What follows the name: `, version (\S+)`. -/
def numberPart : List Item := mark.map .literal ++ [.longest 1 inWord]

/-- The lines that give a version: `^(\S+), version (\S+)`. -/
def versionLine : List Item := .lineStart :: .longest 1 inWord :: numberPart

/-- The groups that a match captures of a version. -/
def groups (v : Version) : List Text := [v.name, v.number]

/-- The version in the groups that a match captures. -/
def ofGroups? : List Text → Option Version
  | [name, number] => some ⟨name, number⟩
  | _ => none

/-! ## Words -/

theorem inWord_feed : inWord '\n' = false := by decide

theorem isWord_iff {t : Text} : Text.IsWord t ↔ ∀ c ∈ t, inWord c = true := by
  simp only [Text.IsWord, inWord, Bool.not_eq_true']

/-- A repetition with nothing behind it always matches. -/
theorem first_longest_ne_none (p : Char → Bool) (fresh : Bool) (t : Text) :
    first? [.longest 0 p] ⟨fresh, t⟩ ≠ none := by
  have hhere : ∀ spot, first? [] spot = some ([], spot) := fun _ => rfl
  cases t with
  | nil =>
    rw [first_longest_nil, hhere]
    nofun
  | cons c cs =>
    rw [first_longest_cons, hhere, ne_eq, Option.or_eq_none_iff]
    rintro ⟨-, hnone⟩
    cases hnone

/-- The version is a word up to its end. -/
theorem first_number_iff {t : Text} {m : Match} :
    first? [.longest 1 inWord] ⟨false, t⟩ = some m ↔
      ∃ number rest, (number ≠ [] ∧ Text.IsWord number) ∧ Text.EndsWord rest ∧
        t = number ++ rest ∧ m = ([number], ⟨false, rest⟩) := by
  rw [first_longest_one_eq_some_iff inWord_feed]
  constructor
  · rintro ⟨number, rest, m', hne, rfl, hrun⟩
    obtain rfl := Option.some.inj hrun.behind
    refine ⟨number, rest, ⟨hne, isWord_iff.2 hrun.taken_all⟩, fun c hc => ?_, hrun.split, rfl⟩
    obtain ⟨cs, hrest⟩ := List.head?_eq_some_iff.1 hc
    by_contra hblank
    have hword : inWord c = true := by simpa [inWord] using hblank
    exact first_longest_ne_none inWord false cs (hrun.last c cs hrest hword)
  · rintro ⟨number, rest, ⟨hne, hword⟩, hend, rfl, rfl⟩
    refine ⟨number, rest, ([], ⟨false, rest⟩), hne, rfl, rfl, isWord_iff.1 hword, rfl, ?_⟩
    intro c cs hrest hc
    have hblank : Text.isBlank c = true := hend c (by rw [hrest]; rfl)
    simp [inWord, hblank] at hc

/-- Behind the name the pattern goes on with the mark and the version. -/
theorem first_numberPart_iff {t : Text} {m : Match} :
    first? numberPart ⟨false, t⟩ = some m ↔
      ∃ number rest, (number ≠ [] ∧ Text.IsWord number) ∧ Text.EndsWord rest ∧
        t = mark ++ (number ++ rest) ∧ m = ([number], ⟨false, rest⟩) := by
  have hmark : '\n' ∉ mark := by decide
  rw [numberPart, first_literals hmark, Option.bind_eq_some_iff]
  simp only [Text.isPrefixOf?_eq_some_iff, first_number_iff]
  constructor
  · rintro ⟨after, rfl, number, rest, hnumber, hend, rfl, rfl⟩
    exact ⟨number, rest, hnumber, hend, rfl, rfl⟩
  · rintro ⟨number, rest, hnumber, hend, rfl, rfl⟩
    exact ⟨number ++ rest, rfl, number, rest, hnumber, hend, rfl, rfl⟩

/-- Behind the comma of the mark there is a blank, so no longer name leads to a match. -/
theorem first_behind_comma (t : Text) :
    first? (.longest 0 inWord :: numberPart) ⟨false, ' ' :: t⟩ = none := by
  have hblank : inWord ' ' = false := by decide
  rw [first_longest_cons, if_neg (by rw [hblank]; exact Bool.false_ne_true), Option.none_or,
    Option.map_eq_none_iff]
  rfl

/-! ## Version lines -/

/-- A version that can be read: name and number are words. -/
def WellFormed (v : Version) : Prop :=
  (v.name ≠ [] ∧ Text.IsWord v.name) ∧ (v.number ≠ [] ∧ Text.IsWord v.number)

instance (v : Version) : Decidable v.WellFormed :=
  inferInstanceAs (Decidable ((v.name ≠ [] ∧ Text.IsWord v.name) ∧
    (v.number ≠ [] ∧ Text.IsWord v.number)))

theorem isLine_iff {v : Version} {line : Text} :
    v.IsLine line ↔ v.WellFormed ∧ ∃ rest, Text.EndsWord rest ∧ line = v.toText ++ rest :=
  and_assoc.symm

theorem toText_append (v : Version) (rest : Text) :
    v.toText ++ rest = v.name ++ (mark ++ (v.number ++ rest)) := by
  have htext : v.toText = v.name ++ mark ++ v.number := rfl
  rw [htext, List.append_assoc, List.append_assoc]

/-- Where a line starts, the pattern matches the version lines, and captures name and number. -/
theorem first_versionLine_iff {t : Text} {m : Match} :
    first? versionLine ⟨true, t⟩ = some m ↔
      ∃ v rest, WellFormed v ∧ Text.EndsWord rest ∧ t = v.toText ++ rest ∧
        m = (v.groups, ⟨false, rest⟩) := by
  rw [versionLine, first_lineStart, if_pos rfl, first_longest_one_eq_some_iff inWord_feed]
  constructor
  · rintro ⟨name, after, m', hne, rfl, hrun⟩
    obtain ⟨number, rest, hnumber, hend, hafter, rfl⟩ := first_numberPart_iff.1 hrun.behind
    refine ⟨⟨name, number⟩, rest, ⟨⟨hne, isWord_iff.2 hrun.taken_all⟩, hnumber⟩, hend, ?_, rfl⟩
    rw [toText_append, ← hafter]
    exact hrun.split
  · rintro ⟨v, rest, ⟨⟨hne, hword⟩, hnumber⟩, hend, rfl, rfl⟩
    refine ⟨v.name, mark ++ (v.number ++ rest), ([v.number], ⟨false, rest⟩), hne, rfl,
      v.toText_append rest, isWord_iff.1 hword,
      first_numberPart_iff.2 ⟨v.number, rest, hnumber, hend, rfl, rfl⟩, ?_⟩
    intro c cs hafter _
    obtain ⟨rfl, rfl⟩ := List.cons.inj hafter
    exact first_behind_comma _

/-- A printed version is one line. -/
theorem feed_not_mem_toText {v : Version} (h : v.WellFormed) : '\n' ∉ v.toText := by
  have hblank : Text.isBlank '\n' = true := by decide
  have hword : ∀ {t : Text}, Text.IsWord t → '\n' ∉ t := by
    intro t ht hmem
    rw [ht '\n' hmem] at hblank
    cases hblank
  have hmark : '\n' ∉ mark := by decide
  rw [← List.append_nil v.toText, toText_append]
  simp [hword h.1.2, hmark, hword h.2.2]

/-- A text starts with a version line when its first line is one. -/
theorem isLine_append_iff {v : Version} {line tail : Text} (hline : '\n' ∉ line)
    (hend : AtLineEnd tail) : v.IsLine (line ++ tail) ↔ v.IsLine line := by
  have hfeed : Text.isBlank '\n' = true := by decide
  rw [isLine_iff, isLine_iff]
  refine and_congr_right fun hv => ⟨?_, ?_⟩
  · rintro ⟨rest, hrest, heq⟩
    rcases List.append_eq_append_iff.1 heq with ⟨more, htext, htail⟩ | ⟨more, hmore, rfl⟩
    · -- the printed version would go on behind the line, but holds no line feed
      have hempty : more = [] := by
        rcases hend with rfl | ⟨cs, rfl⟩
        · exact (List.append_eq_nil_iff.1 htail.symm).1
        · cases more with
          | nil => rfl
          | cons c more =>
            obtain ⟨rfl, -⟩ := List.cons.inj htail
            refine absurd ?_ (feed_not_mem_toText hv)
            rw [htext]
            exact List.mem_append_right _ List.mem_cons_self
      rw [hempty, List.append_nil] at htext
      exact ⟨[], Text.endsWord_nil, by rw [htext, List.append_nil]⟩
    · refine ⟨more, fun c hc => hrest c ?_, hmore⟩
      rw [List.head?_append, hc]
      rfl
  · rintro ⟨rest, hrest, rfl⟩
    refine ⟨rest ++ tail, fun c hc => ?_, List.append_assoc ..⟩
    cases rest with
    | cons d ds => exact hrest c hc
    | nil =>
      rcases hend with rfl | ⟨cs, rfl⟩
      · cases hc
      · obtain rfl := Option.some.inj hc
        exact hfeed

/-! ## The whole text -/

/-- The pattern starts with a line and matches inside it. -/
theorem lineWise_versionLine : LineWise versionLine fun line => (ofLine? line).map groups where
  inside t := by rw [versionLine, first_lineStart, if_neg Bool.false_ne_true]
  of_none {line tail} hline hend hnone := by
    rw [Option.map_eq_none_iff, ofLine_eq_none_iff] at hnone
    rw [Option.eq_none_iff_forall_ne_some]
    intro m hm
    obtain ⟨v, rest, hv, hrest, heq, -⟩ := first_versionLine_iff.1 hm
    exact hnone v ((isLine_append_iff hline hend).1 (isLine_iff.2 ⟨hv, rest, hrest, heq⟩))
  of_some {line tail captured} hline hend hsome := by
    obtain ⟨v, hv, rfl⟩ := Option.map_eq_some_iff.1 hsome
    have hspelled := ofLine_eq_some_iff.1 hv
    obtain ⟨hform, rest, hrest, rfl⟩ := isLine_iff.1 hspelled
    obtain ⟨-, after, hafter, heq⟩ := isLine_iff.1 ((isLine_append_iff hline hend).2 hspelled)
    obtain rfl : rest ++ tail = after := by
      rw [List.append_assoc] at heq
      exact List.append_cancel_left heq
    refine ⟨rest, ?_, fun hfeed => hline (List.mem_append_right _ hfeed), ?_⟩
    · have hname := List.length_pos_iff.2 hform.1.1
      rw [toText_append]
      simp only [List.length_append]
      omega
    · exact first_versionLine_iff.2 ⟨v, rest ++ tail, hform, hafter, heq, rfl⟩

/-- The version of a text is what the first match of the pattern captures. -/
theorem read_eq_head_captures (t : Text) :
    read? t = (captures versionLine ⟨true, t⟩).head?.bind ofGroups? := by
  have hfirst : ((Text.pieces t).findSome? fun line => (ofLine? line).map groups) =
      (read? t).map groups := by
    rw [read?, List.map_findSome?]
    rfl
  rw [lineWise_versionLine.captures_eq, List.head?_filterMap, hfirst]
  cases read? t <;> rfl

/-- A text that starts with a version line has its version. -/
theorem read_of_isLine {v : Version} {t : Text} (h : v.IsLine t) : read? t = some v := by
  obtain ⟨line, tail, rfl, hline, hend, hpieces⟩ := exists_line t
  rw [read?, hpieces, List.findSome?_cons,
    ofLine_eq_some_iff.2 ((isLine_append_iff hline hend).1 h)]

/-- Lines that are no version lines are passed over. -/
theorem read_closeLines_append {earlier : List Text}
    (h : ∀ line ∈ earlier, '\n' ∉ line ∧ ∀ v : Version, ¬ v.IsLine line) (t : Text) :
    read? (Text.closeLines earlier ++ t) = read? t := by
  have hnone : earlier.findSome? ofLine? = none := by
    rw [List.findSome?_eq_none_iff]
    exact fun line hline => ofLine_eq_none_iff.2 (h line hline).2
  rw [read?, Text.pieces_closeLines_append fun line hline => (h line hline).1,
    List.findSome?_append, hnone, Option.none_or, read?]

/-- What is read can be printed. -/
theorem wellFormed_of_read {v : Version} {t : Text} (h : read? t = some v) : v.WellFormed := by
  obtain ⟨front, line, back, -, hline, -⟩ := read_eq_some_iff.1 h
  exact (isLine_iff.1 hline).1

/-- The version of a text is what the first match of the pattern captures, which is the version
of its first version line, and there is none exactly when no line is a version line; a version
line is cut in one way.  A printed version is read back among lines that are no version lines,
and so is every version that was ever read. -/
theorem version_read_back :
    (∀ t : Text,
      read? t = (captures versionLine ⟨true, t⟩).head?.bind ofGroups? ∧
      (∀ v, read? t = some v ↔ ∃ front line back, t.splitOn '\n' = front ++ line :: back ∧
        v.IsLine line ∧ ∀ earlier ∈ front, ∀ w : Version, ¬ w.IsLine earlier) ∧
      (read? t = none ↔ ∀ line ∈ t.splitOn '\n', ∀ v : Version, ¬ v.IsLine line) ∧
      ∀ v, read? t = some v → read? v.toText = some v) ∧
    (∀ (v w : Version) (rest rest' : Text), v.WellFormed → w.WellFormed →
      Text.EndsWord rest → Text.EndsWord rest' → v.toText ++ rest = w.toText ++ rest' →
      v = w ∧ rest = rest') ∧
    ∀ (v : Version) (earlier : List Text) (rest : Text), v.WellFormed → Text.EndsWord rest →
      (∀ line ∈ earlier, '\n' ∉ line ∧ ∀ w : Version, ¬ w.IsLine line) →
      read? (Text.closeLines earlier ++ (v.toText ++ rest)) = some v := by
  have hback : ∀ (v : Version) (rest : Text), v.WellFormed → Text.EndsWord rest →
      read? (v.toText ++ rest) = some v :=
    fun v rest hv hrest => read_of_isLine (isLine_iff.2 ⟨hv, rest, hrest, rfl⟩)
  refine ⟨fun t => ⟨read_eq_head_captures t, fun v => ?_, ?_, fun v hv => ?_⟩, ?_, ?_⟩
  · rw [← Text.pieces_eq_splitOn]
    exact read_eq_some_iff
  · rw [← Text.pieces_eq_splitOn, read?, List.findSome?_eq_none_iff]
    simp only [ofLine_eq_none_iff]
  · have hprinted := hback v [] (wellFormed_of_read hv) Text.endsWord_nil
    rwa [List.append_nil] at hprinted
  · intro v w rest rest' hv hw hrest hrest' heq
    have hspelled : w.IsLine (v.toText ++ rest) := isLine_iff.2 ⟨hw, rest', hrest', heq⟩
    obtain rfl := IsLine.unique (isLine_iff.2 ⟨hv, rest, hrest, rfl⟩) hspelled
    exact ⟨rfl, List.append_cancel_left heq⟩
  · intro v earlier rest hv hrest hearlier
    rw [read_closeLines_append hearlier]
    exact hback v rest hv hrest

/-- A name that ends in commas, behind lines that miss the pattern by a blank at the front, an
empty name and an empty version, and before a blank that is not ASCII and a second version. -/
theorem version_read_back_amid_lookalikes :
    let v : Version := ⟨"fish,,", "4.0b1,"⟩
    let earlier : List Text := [" fish, version 3", ", version 3", "fish, version \t3"]
    let rest : Text := "\u3000x, version 9\nfish, version 3"
    v.WellFormed ∧ Text.EndsWord rest ∧
      (∀ line ∈ earlier, '\n' ∉ line ∧ ∀ w : Version, ¬ w.IsLine line) ∧
      read? (Text.closeLines earlier ++ (v.toText ++ rest)) = some v ∧
      read? v.toText = some v := by
  intro v earlier rest
  have hv : v.WellFormed := by decide
  have hrest : Text.EndsWord rest := by decide
  have hearlier : ∀ line ∈ earlier, '\n' ∉ line ∧ ∀ w : Version, ¬ w.IsLine line := by
    have hnone : ∀ line ∈ earlier, '\n' ∉ line ∧ ofLine? line = none := by decide
    exact fun line hline => ⟨(hnone line hline).1, ofLine_eq_none_iff.1 (hnone line hline).2⟩
  have hread := version_read_back.2.2 v earlier rest hv hrest hearlier
  exact ⟨hv, hrest, hearlier, hread, (version_read_back.1 _).2.2.2 v hread⟩

end Version

end FishCheck
