import FishCheck.Proofs.Document.Places
import FishCheck.Proofs.Session.Formatting

/-!
# What an editor selects

An editor finds a position by counting code units from the start of its line, and the
range of an edit is the stretch of code units between two such places.  The text that was
formatted is cut at characters instead, so a position between the two units of a pair of
surrogates counts for one unit more there.  The two stretches agree exactly when neither
end of the range splits a pair, or nothing is selected.

Main results:

- Theorem `length_take_indexAt`: the units before a cut, against those before its position.
- Theorem `selection_eq_iff`: when an editor's selection is the text of the range.
- Theorem `edit_selects_iff`: the same for the edit that a formatter run asks for.
-/

namespace FishCheck

namespace Utf16

/-! ## Halves of characters -/

/-- Whether a code unit is the second one of a pair of surrogates. -/
def isLow (u : UInt16) : Bool := 0xDC00 ≤ u.toNat ∧ u.toNat < 0xE000

theorem encode_append (s t : Text) : encode (s ++ t) = encode s ++ encode t :=
  List.flatMap_append

/-- No character starts with the second half of a pair. -/
theorem isLow_head_encodeChar {c : Char} {u : UInt16} {us : List UInt16}
    (h : encodeChar c = u :: us) : isLow u = false := by
  have hvalid := Utf8.char_valid c
  unfold encodeChar at h
  simp only at h
  split at h
  · obtain ⟨rfl, -⟩ := List.cons.inj h
    simp only [isLow, UInt16.toNat_ofNat', decide_eq_false_iff_not]
    omega
  · obtain ⟨rfl, -⟩ := List.cons.inj h
    simp only [isLow, UInt16.toNat_ofNat', decide_eq_false_iff_not]
    omega

/-- The second unit of a character is the second half of a pair. -/
theorem isLow_second {c : Char} (hc : units c = 2) :
    ∃ u v, encodeChar c = [u, v] ∧ isLow v = true := by
  have hwide : ¬ c.toNat < 0x10000 := by
    intro hlt
    rw [units, if_pos hlt] at hc
    cases hc
  unfold encodeChar
  simp only [if_neg hwide]
  refine ⟨_, _, rfl, ?_⟩
  simp only [isLow, UInt16.toNat_ofNat', decide_eq_true_eq]
  omega

/-- No text starts with the second half of a pair. -/
theorem isLow_head_encode {t : Text} {u : UInt16} {us : List UInt16}
    (h : encode t = u :: us) : isLow u = false := by
  cases t with
  | nil => cases h
  | cons c cs =>
    have hsplit : encode (c :: cs) = encodeChar c ++ encode cs := List.flatMap_cons
    have hlength := length_encodeChar c
    have hpos := units_pos c
    cases hchar : encodeChar c with
    | nil =>
      rw [hchar, List.length_nil] at hlength
      omega
    | cons v vs =>
      rw [hsplit, hchar, List.cons_append] at h
      obtain ⟨rfl, -⟩ := List.cons.inj h
      exact isLow_head_encodeChar hchar

/-- The units of the first characters are the first units. -/
theorem encode_take (t : Text) (n : Nat) :
    encode (t.take n) = (encode t).take (length (t.take n)) := by
  conv_rhs => rw [← List.take_append_drop n t, encode_append]
  rw [List.take_left' (by rw [List.take_append_drop, length_encode])]

/-- The units of the other characters are the other units. -/
theorem encode_drop (t : Text) (n : Nat) :
    encode (t.drop n) = (encode t).drop (length (t.take n)) := by
  conv_rhs => rw [← List.take_append_drop n t, encode_append]
  rw [List.drop_left' (by rw [List.take_append_drop, length_encode])]

end Utf16

namespace Document

/-! ## Reading positions in code units -/

/-- Where an editor finds a position: behind the code units of the earlier lines, as many
units further as the position says. -/
def unitAt (d : Document) (p : Position) : Nat :=
  Utf16.length (d.text.take (d.lineStart p.line)) + p.character

/-- The code units that an editor finds in a range. -/
def selection (d : Document) (r : Range) : List UInt16 :=
  ((Utf16.encode d.text).take (d.unitAt r.stop)).drop (d.unitAt r.start)

/-- Whether a position stands between the two code units of a character. -/
def splitsPair (d : Document) (p : Position) : Bool :=
  ((Utf16.encode d.text)[d.unitAt p]?).any Utf16.isLow

/-- The code units before the character boundary at a position, or next behind it. -/
def boundaryAt (d : Document) (p : Position) : Nat :=
  d.unitAt p + if d.splitsPair p then 1 else 0

/-- A position between two characters splits none. -/
theorem splitsPair_of_cut {d : Document} {p : Position} {front back : Text}
    (h : d.text = front ++ back) (hp : d.unitAt p = Utf16.length front) :
    d.splitsPair p = false := by
  have hunit : (Utf16.encode d.text)[d.unitAt p]? = (Utf16.encode back).head? := by
    rw [h, Utf16.encode_append, hp, ← Utf16.length_encode, List.getElem?_append_right (Nat.le_refl _),
      Nat.sub_self, List.head?_eq_getElem?]
  rw [splitsPair, hunit]
  cases hback : Utf16.encode back with
  | nil => rfl
  | cons u us => exact Utf16.isLow_head_encode hback

/-- A position one unit into a character of two units splits it. -/
theorem splitsPair_of_inside {d : Document} {p : Position} {before back : Text} {c : Char}
    (h : d.text = before ++ c :: back) (hc : Utf16.units c = 2)
    (hp : d.unitAt p = Utf16.length before + 1) : d.splitsPair p = true := by
  obtain ⟨u, v, hchar, hlow⟩ := Utf16.isLow_second hc
  have hback : Utf16.encode (c :: back) = [u, v] ++ Utf16.encode back := by
    rw [← hchar]
    exact List.flatMap_cons
  have hunit : (Utf16.encode d.text)[d.unitAt p]? = some v := by
    rw [h, Utf16.encode_append, hp, ← Utf16.length_encode,
      List.getElem?_append_right (Nat.le_add_right _ _), Nat.add_sub_cancel_left, hback]
    rfl
  rw [splitsPair, hunit]
  exact hlow

/-- The text is cut at the character boundary of a position. -/
theorem length_take_indexAt {d : Document} {p : Position} (h : d.Contains p) :
    Utf16.length (d.text.take (d.indexAt p)) = d.boundaryAt p := by
  obtain ⟨before, content, behind, htext, hline, -, hlength, -, -, -⟩ := d.exists_place h.1
  have hunits : p.character ≤ Utf16.length content := by
    rw [← lineLength_of_line? hline]
    exact h.2
  have hcount := charactersFor_le_length content p.character
  have htake : d.text.take (d.indexAt p) =
      before ++ content.take (charactersFor content p.character) := by
    rw [indexAt_of_contains h hline, htext, ← hlength, List.append_assoc, List.take_length_add_append,
      List.take_append_of_le_length hcount]
  have hunit : d.unitAt p = Utf16.length before + p.character := by
    rw [unitAt, htext, ← hlength, List.append_assoc, List.take_left]
  have hback : d.text = (before ++ content.take (charactersFor content p.character)) ++
      (content.drop (charactersFor content p.character) ++ behind) := by
    rw [htext]
    simp only [List.append_assoc, List.take_append_drop, ← List.append_assoc (List.take _ _)]
  rw [htake, Utf16.length_append, boundaryAt, hunit]
  rcases length_take_charactersFor content hunits with hexact | ⟨front, c, hfront, hc, hinside⟩
  · have hsplits : d.splitsPair p = false :=
      splitsPair_of_cut hback (by rw [hunit, Utf16.length_append, hexact])
    simp only [hexact, hsplits, Bool.false_eq_true, if_false, Nat.add_zero]
  · rw [hfront] at hback
    have hcut : d.text = (before ++ front) ++
        c :: (content.drop (charactersFor content p.character) ++ behind) := by
      rw [hback]
      simp
    have hsplits : d.splitsPair p = true :=
      splitsPair_of_inside hcut hc (by rw [hunit, Utf16.length_append]; omega)
    have hlast : Utf16.length [c] = 2 := by simp [Utf16.length, hc]
    simp only [hfront, Utf16.length_append, hlast, hsplits, if_true]
    omega

/-- The units of a slice are those between the character boundaries of its ends. -/
theorem encode_slice_units {d : Document} {r : Range} (h : d.ContainsRange r) :
    Utf16.encode (d.slice r) =
      ((Utf16.encode d.text).take (d.boundaryAt r.stop)).drop (d.boundaryAt r.start) := by
  have hindex := d.indexAt_mono h.2.2
  rw [slice_of_containsRange h, Utf16.encode_drop, Utf16.encode_take, List.take_take,
    Nat.min_eq_left hindex, length_take_indexAt h.1, length_take_indexAt h.2.1]

/-- A boundary is no more than one unit behind its position. -/
theorem boundaryAt_le_succ (d : Document) (p : Position) : d.boundaryAt p ≤ d.unitAt p + 1 := by
  unfold boundaryAt
  split <;> omega

/-- No boundary is past the end of the text. -/
theorem boundaryAt_le_length {d : Document} {p : Position} (h : d.Contains p) :
    d.boundaryAt p ≤ (Utf16.encode d.text).length := by
  have hsplit := List.take_append_drop (d.indexAt p) d.text
  rw [← length_take_indexAt h, Utf16.length_encode]
  conv_rhs => rw [← hsplit, Utf16.length_append]
  exact Nat.le_add_right _ _

/-- Neither end of the whole document splits a character. -/
theorem splitsPair_origin (d : Document) : d.splitsPair ⟨0, 0⟩ = false :=
  splitsPair_of_cut (List.nil_append d.text).symm (by simp [unitAt, lineStart_zero])

theorem splitsPair_stop (d : Document) : d.splitsPair d.stop = false := by
  obtain ⟨before, content, behind, htext, hline, -, hlength, -, -, -⟩ :=
    d.exists_place (Nat.le_refl d.lastLine)
  have hmeasure : d.lineLength d.lastLine = Utf16.length content := lineLength_of_line? hline
  have hall : d.lineStart d.lastLine + content.length = d.text.length := by
    rw [← d.indexAt_stop, indexAt_of_contains d.contains_stop hline, stop, hmeasure,
      charactersFor_length]
  have hend : behind = [] := by
    rw [htext, List.length_append, List.length_append] at hall
    exact List.eq_nil_of_length_eq_zero (by omega)
  subst hend
  refine splitsPair_of_cut htext ?_
  rw [unitAt, stop, hmeasure, htext, ← hlength, List.append_assoc, List.take_left,
    Utf16.length_append]

/-- The boundaries of a range are in order. -/
theorem boundaryAt_mono {d : Document} {r : Range} (h : d.ContainsRange r) :
    d.boundaryAt r.start ≤ d.boundaryAt r.stop := by
  have hindex := d.indexAt_mono h.2.2
  rw [← length_take_indexAt h.1, ← length_take_indexAt h.2.1,
    ← d.text.take_append_drop_take hindex, Utf16.length_append]
  exact Nat.le_add_right _ _

/-- What an editor selects has as many units as lie between the positions. -/
theorem length_selection {d : Document} {r : Range} (h : d.ContainsRange r) :
    (d.selection r).length = d.unitAt r.stop - d.unitAt r.start := by
  have hle := boundaryAt_le_length h.2.1
  have hstop : d.unitAt r.stop ≤ (Utf16.encode d.text).length :=
    Nat.le_trans (Nat.le_add_right _ _) hle
  rw [selection, List.length_drop, List.length_take, Nat.min_eq_left hstop]

/-- An editor that selects anything selects the text of the range exactly when neither end
of it splits a character. -/
theorem selection_eq_iff {d : Document} {r : Range} (h : d.ContainsRange r) :
    d.selection r = Utf16.encode (d.slice r) ↔
      d.selection r = [] ∨ d.splitsPair r.start = false ∧ d.splitsPair r.stop = false := by
  have hslice := encode_slice_units h
  have hselected := length_selection h
  have horder := boundaryAt_mono h
  have hfits := boundaryAt_le_length h.2.1
  constructor
  · intro heq
    by_cases hnil : d.selection r = []
    · exact .inl hnil
    right
    have hpos := List.length_pos_of_ne_nil hnil
    -- The first unit of a text is no second half, so the start splits no pair.
    have hstart : d.splitsPair r.start = false := by
      cases hunits : d.selection r with
      | nil => exact absurd hunits hnil
      | cons u us =>
        have hfirst : (Utf16.encode d.text)[d.unitAt r.start]? = some u := by
          have hhead : (d.selection r)[0]? = some u := by rw [hunits]; rfl
          rw [selection, List.getElem?_drop, Nat.add_zero, List.getElem?_take] at hhead
          simpa [show d.unitAt r.start < d.unitAt r.stop by omega] using hhead
        rw [splitsPair, hfirst]
        exact Utf16.isLow_head_encode (heq ▸ hunits)
    -- Then the lengths leave no room for a split at the end.
    have hlength := congrArg List.length heq
    rw [hselected, hslice, List.length_drop, List.length_take, Nat.min_eq_left hfits] at hlength
    refine ⟨hstart, ?_⟩
    cases hstop : d.splitsPair r.stop with
    | false => rfl
    | true =>
      simp only [boundaryAt, hstart, hstop, Bool.false_eq_true, if_false, if_true] at hlength
      omega
  · rintro (hnil | ⟨hstart, hstop⟩)
    · have hempty : d.boundaryAt r.stop ≤ d.boundaryAt r.start := by
        rw [hnil, List.length_nil] at hselected
        rcases Nat.lt_or_eq_of_le (Nat.le_of_sub_eq_zero hselected.symm) with hlt | hsame
        · have hnext : d.boundaryAt r.stop ≤ d.unitAt r.stop + 1 := d.boundaryAt_le_succ r.stop
          exact Nat.le_trans hnext (Nat.le_trans hlt (Nat.le_add_right _ _))
        · rw [boundaryAt, boundaryAt, splitsPair, splitsPair, hsame]
      rw [hnil, hslice, List.drop_eq_nil_of_le]
      rw [List.length_take]
      omega
    · simp only [hslice, selection, boundaryAt, hstart, hstop, Bool.false_eq_true, if_false,
        Nat.add_zero]

end Document

namespace Format

/-! ## Edits -/

/-- The edit of a successful run is about the clamped range, whose character boundaries
enclose what the formatter read.  An editor that finds the range in its own code units finds
just that text exactly when neither end of the range splits a character, or when it finds
nothing; of the whole document it always does. -/
theorem edit_selects_iff (s : Settings) (cwd : Option Path) (d : Document)
    (range? : Option Range) (c : Completion) (hc : c.exitCode = 0) :
    let range := target d range?
    ∃ input, (invocation s cwd d range).stdin = some input ∧
      conclude range (.ok c) = .ok (some ⟨range, c.stdout⟩) ∧
      Utf16.encode input =
        ((Utf16.encode d.text).take (d.boundaryAt range.stop)).drop (d.boundaryAt range.start) ∧
      (d.selection range = Utf16.encode input ↔
        d.selection range = [] ∨
          d.splitsPair range.start = false ∧ d.splitsPair range.stop = false) ∧
      (range? = none → d.selection range = Utf16.encode input) := by
  intro range
  have hrange : d.ContainsRange range := containsRange_target d range?
  refine ⟨d.slice range, rfl, conclude_ok range c hc, Document.encode_slice_units hrange,
    Document.selection_eq_iff hrange, ?_⟩
  rintro rfl
  exact (Document.selection_eq_iff hrange).2 (.inr ⟨d.splitsPair_origin, d.splitsPair_stop⟩)

/-- A range that begins between the units of a pair and one that begins in front of it. -/
theorem edit_selects_iff_pair :
    let d : Document := ⟨"a😀b"⟩
    let c : Completion := ⟨0, "x", []⟩
    c.exitCode = 0 ∧
      d.selection (target d (some ⟨⟨0, 2⟩, ⟨0, 9⟩⟩)) ≠
        Utf16.encode (d.slice (target d (some ⟨⟨0, 2⟩, ⟨0, 9⟩⟩))) ∧
      d.selection (target d (some ⟨⟨0, 1⟩, ⟨0, 9⟩⟩)) =
        Utf16.encode (d.slice (target d (some ⟨⟨0, 1⟩, ⟨0, 9⟩⟩))) := by
  intro d c
  have hc : c.exitCode = 0 := rfl
  obtain ⟨_, hinput, -, -, hinside, -⟩ :=
    edit_selects_iff {} none d (some ⟨⟨0, 2⟩, ⟨0, 9⟩⟩) c hc
  obtain ⟨_, hother, -, -, hfront, -⟩ :=
    edit_selects_iff {} none d (some ⟨⟨0, 1⟩, ⟨0, 9⟩⟩) c hc
  obtain rfl := Option.some.inj hinput
  obtain rfl := Option.some.inj hother
  refine ⟨hc, fun heq => ?_, hfront.2 (.inr (by decide +kernel))⟩
  exact absurd (hinside.1 heq) (by decide +kernel)

/-- Not every edit is about the text that was formatted: an editor may find half of a
character more in its range. -/
theorem edit_misses_text :
    ¬ ∀ (s : Settings) (cwd : Option Path) (d : Document) (range? : Option Range)
      (c : Completion), c.exitCode = 0 →
      ∃ input edit, (invocation s cwd d (target d range?)).stdin = some input ∧
        conclude (target d range?) (.ok c) = .ok (some edit) ∧
        d.selection edit.range = Utf16.encode input := by
  intro hall
  obtain ⟨_, _, hinput, hedit, hselected⟩ :=
    hall {} none ⟨"a😀b"⟩ (some ⟨⟨0, 2⟩, ⟨0, 4⟩⟩) ⟨0, "x", []⟩ rfl
  obtain rfl := Option.some.inj hinput
  rw [conclude_ok _ _ rfl] at hedit
  obtain rfl := Option.some.inj (Except.ok.inj hedit)
  exact absurd hselected (by decide +kernel)

end Format

end FishCheck
