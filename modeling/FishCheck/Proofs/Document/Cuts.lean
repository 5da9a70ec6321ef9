import FishCheck.Proofs.Document.Clamping

/-!
# Cutting a document up

Positions in order cut a document into slices.  A cut may fall behind the end of a line or of
the text, or between the code units of a character, and the slices on both of its sides find
their own way to a character there.  This module shows that they find the same one: a slice is
followed by what stands behind its end, so slices join without a gap.

Main results:

- Theorem `slice_append_rest`: what a slice leaves stands behind its end.
- Theorem `slice_append`: neighbouring slices join.
- Theorem `flatten_cuts`: the slices between any positions in order make up the document.
- Theorem `slices_cover`: the same with what stands around a range.
-/

namespace FishCheck

namespace Position

/-- No position is before the origin. -/
theorem origin_le (p : Position) : ⟨0, 0⟩ ≤ p := by
  rw [le_def]
  rcases Nat.eq_zero_or_pos p.line with hline | hline
  · exact Or.inr ⟨hline.symm, Nat.zero_le _⟩
  · exact Or.inl hline

end Position

namespace Document

/-- The text behind a position. -/
def rest (d : Document) (p : Position) : Text := d.text.drop (d.indexAt p)

theorem rest_origin (d : Document) : d.rest ⟨0, 0⟩ = d.text := by
  rw [rest, indexAt_origin, List.drop_zero]

theorem rest_stop (d : Document) : d.rest d.stop = [] := by
  rw [rest, indexAt_stop, List.drop_length]

/-- What a slice leaves stands behind its end. -/
theorem slice_append_rest (d : Document) {p q : Position} (h : p ≤ q) :
    d.slice ⟨p, q⟩ ++ d.rest q = d.rest p := by
  have hindex : d.indexAt p ≤ d.indexAt q := d.indexAt_mono h
  have hslice : d.slice ⟨p, q⟩ = (d.rest p).take (d.indexAt q - d.indexAt p) := by
    rw [← d.slice_clampRange, slice_of_containsRange (d.containsRange_clampRange _),
      clampRange_of_le h, indexAt_clamp, indexAt_clamp, List.drop_take, rest]
  have hrest : d.rest q = (d.rest p).drop (d.indexAt q - d.indexAt p) := by
    rw [rest, rest, List.drop_drop, Nat.add_sub_cancel' hindex]
  rw [hslice, hrest, List.take_append_drop]

/-- Neighbouring slices join. -/
theorem slice_append (d : Document) {p q r : Position} (hpq : p ≤ q) (hqr : q ≤ r) :
    d.slice ⟨p, q⟩ ++ d.slice ⟨q, r⟩ = d.slice ⟨p, r⟩ := by
  -- Both sides are what stands behind `p` less what stands behind `r`.
  rw [← List.append_left_inj (d.rest r), List.append_assoc, d.slice_append_rest hqr,
    d.slice_append_rest hpq, d.slice_append_rest (Position.le_trans hpq hqr)]

/-- The slice up to the end of the document is all that stands behind its start, even behind
a start past the end. -/
theorem slice_to_stop (d : Document) (p : Position) : d.slice ⟨p, d.stop⟩ = d.rest p := by
  have hclamped : d.slice ⟨p, d.stop⟩ = d.slice ⟨d.clamp p, d.stop⟩ := by
    rw [← d.slice_clampRange, ← d.slice_clampRange ⟨d.clamp p, d.stop⟩]
    simp only [clampRange, clamp_clamp]
  have hjoin := d.slice_append_rest (d.clamp_le_stop p)
  rw [rest_stop, List.append_nil] at hjoin
  rw [hclamped, hjoin, rest, indexAt_clamp, rest]

/-! ## Whole documents -/

/-- The slices from a position to further ones and to the end of the document. -/
def cuts (d : Document) (p : Position) : List Position → List Text
  | [] => [d.slice ⟨p, d.stop⟩]
  | q :: qs => d.slice ⟨p, q⟩ :: d.cuts q qs

/-- The slices between positions in order are all that stands behind the first one. -/
theorem flatten_cuts (d : Document) {p : Position} {qs : List Position}
    (h : (p :: qs).Pairwise (· ≤ ·)) : (d.cuts p qs).flatten = d.rest p := by
  induction qs generalizing p with
  | nil => rw [cuts, List.flatten_singleton, slice_to_stop]
  | cons q qs ih =>
    obtain ⟨hfirst, hothers⟩ := List.pairwise_cons.1 h
    rw [cuts, List.flatten_cons, ih hothers, d.slice_append_rest (hfirst q List.mem_cons_self)]

/-- A range stands between the text before it and the text behind it, once it is clamped. -/
theorem text_around (d : Document) (r : Range) :
    d.text = d.slice ⟨⟨0, 0⟩, (d.clampRange r).start⟩ ++ d.slice r ++
      d.slice ⟨(d.clampRange r).stop, d.fullRange.stop⟩ := by
  have hle : (d.clampRange r).start ≤ (d.clampRange r).stop :=
    (d.containsRange_clampRange r).2.2
  have hbehind : d.slice ⟨(d.clampRange r).stop, d.fullRange.stop⟩ =
      d.rest (d.clampRange r).stop := d.slice_to_stop _
  rw [hbehind, ← d.slice_clampRange r, List.append_assoc, d.slice_append_rest hle,
    d.slice_append_rest (Position.origin_le _), rest_origin]

/-- Neighbouring slices join, and slices that start with the document and end with it make
it up: the whole document, the parts before, in and behind any range, and those between any
positions in order.  The index of a text of fewer than 2^32 - 1 bytes cuts the same slices,
whatever words it is asked about. -/
theorem slices_cover (t : Text) (h : Utf8.size t < 2 ^ 32 - 1) :
    let d := Document.mk t
    (∀ p q r, p ≤ q → q ≤ r → d.slice ⟨p, q⟩ ++ d.slice ⟨q, r⟩ = d.slice ⟨p, r⟩) ∧
    d.slice d.fullRange = t ∧
    (∀ r, t = d.slice ⟨⟨0, 0⟩, (d.clampRange r).start⟩ ++ d.slice r ++
      d.slice ⟨(d.clampRange r).stop, d.fullRange.stop⟩) ∧
    (∀ ps : List Position, ps.Pairwise (· ≤ ·) → (d.cuts ⟨0, 0⟩ ps).flatten = t) ∧
    (ByteIndex.ofText t).Represents d := by
  intro d
  refine ⟨fun p q r => d.slice_append, d.slice_fullRange, d.text_around, fun ps hps => ?_,
    ByteIndex.represents_ofText h⟩
  have hordered : (⟨0, 0⟩ :: ps : List Position).Pairwise (· ≤ ·) :=
    List.pairwise_cons.2 ⟨fun p _ => p.origin_le, hps⟩
  rw [d.flatten_cuts hordered, rest_origin]

/-- Cuts behind a carriage return that ends the text, between the code units of a character
and past the end of a line. -/
theorem slices_cover_odd_cuts :
    let t : Text := "a😀\r\nb\r"
    let d := Document.mk t
    let ps : List Position := [⟨0, 2⟩, ⟨0, 9⟩, ⟨1, 2⟩, ⟨5, 0⟩]
    Utf8.size t < 2 ^ 32 - 1 ∧
      ((⟨0, 2⟩ : Position) ≤ ⟨0, 9⟩ ∧ (⟨0, 9⟩ : Position) ≤ ⟨1, 2⟩ ∧
        d.slice ⟨⟨0, 2⟩, ⟨0, 9⟩⟩ ++ d.slice ⟨⟨0, 9⟩, ⟨1, 2⟩⟩ = "\r\nb\r".toList) ∧
      (ps.Pairwise (· ≤ ·) ∧ (d.cuts ⟨0, 0⟩ ps).flatten = t ∧
        d.cuts ⟨0, 0⟩ ps = ["a😀".toList, [], "\r\nb\r".toList, [], []]) ∧
      (ByteIndex.ofText t).slice ⟨⟨0, 2⟩, ⟨1, 2⟩⟩ = .ok "\r\nb\r".toList := by
  intro t d ps
  have hsize : Utf8.size t < 2 ^ 32 - 1 := by decide +kernel
  have hfirst : (⟨0, 2⟩ : Position) ≤ ⟨0, 9⟩ := by decide
  have hsecond : (⟨0, 9⟩ : Position) ≤ ⟨1, 2⟩ := by decide
  have hordered : ps.Pairwise (· ≤ ·) := by decide
  have hslice : d.slice ⟨⟨0, 2⟩, ⟨1, 2⟩⟩ = "\r\nb\r" := by decide +kernel
  obtain ⟨hjoin, -, -, hcuts, hindex⟩ := slices_cover t hsize
  refine ⟨hsize, ⟨hfirst, hsecond, (hjoin _ _ _ hfirst hsecond).trans hslice⟩,
    ⟨hordered, hcuts ps hordered, by decide +kernel⟩, ?_⟩
  rw [hindex.slice]
  exact congrArg Except.ok hslice

end Document

end FishCheck
