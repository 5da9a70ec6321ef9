import FishCheck.Proofs.Document.ByteIndex

/-!
# Clamping as a retraction

The positions of a document are some of all positions, and clamping sends every position
to one of them: to the last one that is not behind it.  This module derives from that
order what clamping does to single positions and to ranges, whichever way these run.

Main results:

- Theorem `le_clamp_iff`: the positions of the document up to the clamped position are
  those up to the position itself.
- Theorems `clampRange_of_le`, `clampRange_of_backwards`: clamped ranges, by the way they
  run before.
- Theorem `clamp_retracts`: clamping is a monotone retraction onto the document.
-/

namespace FishCheck

namespace Document

/-! ## Positions -/

/-- Clamping moves nothing but what is outside of the document. -/
theorem clamp_eq_self_iff {d : Document} {p : Position} : d.clamp p = p ↔ d.Contains p := by
  constructor
  · intro h
    rw [← h]
    exact d.contains_clamp p
  · exact clamp_of_contains

/-- No position moves behind itself. -/
theorem clamp_le_self (d : Document) (p : Position) : d.clamp p ≤ p := by
  by_cases hline : d.lastLine < p.line
  · rw [clamp_of_lastLine_lt hline]
    exact Or.inl hline
  · rw [clamp, if_neg hline]
    exact Or.inr ⟨rfl, Nat.min_le_left _ _⟩

/-- A position goes to the last one of the document that is not behind it. -/
theorem le_clamp_iff {d : Document} {p q : Position} (hq : d.Contains q) :
    q ≤ d.clamp p ↔ q ≤ p := by
  constructor
  · intro h
    exact Position.le_trans h (d.clamp_le_self p)
  · intro h
    rw [← clamp_of_contains hq]
    exact d.clamp_mono h

theorem clamp_le_stop (d : Document) (p : Position) : d.clamp p ≤ d.stop :=
  le_stop_of_contains (d.contains_clamp p)

/-! ## Ranges -/

/-- The ends of a range that runs forwards are clamped one by one. -/
theorem clampRange_of_le {d : Document} {r : Range} (h : r.start ≤ r.stop) :
    d.clampRange r = ⟨d.clamp r.start, d.clamp r.stop⟩ := by
  simp only [clampRange, if_pos (d.clamp_mono h)]

/-- A range that runs backwards collapses, even when clamping moves its ends together. -/
theorem clampRange_of_backwards {d : Document} {r : Range} (h : r.stop ≤ r.start) :
    d.clampRange r = ⟨d.clamp r.start, d.clamp r.start⟩ := by
  have hclamped : d.clamp r.stop ≤ d.clamp r.start := d.clamp_mono h
  unfold clampRange
  by_cases hle : d.clamp r.start ≤ d.clamp r.stop
  · rw [Position.le_antisymm hclamped hle]
    simp only [if_pos (Position.le_refl _)]
  · simp only [if_neg hle]

/-- Slices are cut after clamping. -/
theorem slice_clampRange (d : Document) (r : Range) : d.slice (d.clampRange r) = d.slice r := by
  simp only [slice, clampRange_clampRange]

/-- Clamping is a monotone retraction onto the positions of the document, and so is clamping
ranges onto the ranges in the document that run forwards.  The index of a text of fewer than
2^32 - 1 bytes clamps in the same way, whatever words it is asked about. -/
theorem clamp_retracts (t : Text) (h : Utf8.size t < 2 ^ 32 - 1) :
    let d := Document.mk t
    (∀ p, d.clamp (d.clamp p) = d.clamp p) ∧
    (∀ p, d.clamp p = p ↔ p.line ≤ d.lastLine ∧ p.character ≤ d.lineLength p.line) ∧
    (∀ p q, p ≤ q → d.clamp p ≤ d.clamp q ∧ d.clamp q ≤ d.fullRange.stop) ∧
    (∀ p q, d.clamp q = q → (q ≤ d.clamp p ↔ q ≤ p)) ∧
    (∀ r, d.clampRange (d.clampRange r) = d.clampRange r ∧
      d.ContainsRange (d.clampRange r) ∧
      (r.start ≤ r.stop → d.clampRange r = ⟨d.clamp r.start, d.clamp r.stop⟩) ∧
      (r.stop ≤ r.start → d.clampRange r = ⟨d.clamp r.start, d.clamp r.start⟩) ∧
      d.slice (d.clampRange r) = d.slice r) ∧
    (ByteIndex.ofText t).Represents d := by
  intro d
  refine ⟨d.clamp_clamp, fun p => clamp_eq_self_iff, fun p q hle => ?_, fun p q hq => ?_,
    fun r => ?_, ByteIndex.represents_ofText h⟩
  · exact ⟨d.clamp_mono hle, d.clamp_le_stop q⟩
  · exact le_clamp_iff (clamp_eq_self_iff.1 hq)
  · exact ⟨d.clampRange_clampRange r, d.containsRange_clampRange r, clampRange_of_le,
      clampRange_of_backwards, d.slice_clampRange r⟩

/-- A position past the end of a line and one past the last line, with the ranges between
them in both directions. -/
theorem clamp_retracts_both_ways :
    let t : Text := "ab\r\n😀"
    let d := Document.mk t
    let p : Position := ⟨0, 9⟩
    let q : Position := ⟨7, 0⟩
    Utf8.size t < 2 ^ 32 - 1 ∧
      (p ≤ q ∧ d.clamp p ≤ d.clamp q ∧ d.clamp q ≤ d.fullRange.stop) ∧
      (d.clamp ⟨1, 1⟩ = ⟨1, 1⟩ ∧ (⟨1, 1⟩ ≤ d.clamp q ↔ ⟨1, 1⟩ ≤ q)) ∧
      d.clampRange ⟨p, q⟩ = ⟨⟨0, 2⟩, ⟨1, 2⟩⟩ ∧
      d.clampRange ⟨q, p⟩ = ⟨⟨1, 2⟩, ⟨1, 2⟩⟩ ∧
      ∃ s, (ByteIndex.ofText t).clampSelection ⟨⟨7, 0⟩, ⟨0, 9⟩⟩ = .ok s ∧
        s.range = d.clampRange ⟨q, p⟩ := by
  intro t d p q
  have hsize : Utf8.size t < 2 ^ 32 - 1 := by decide +kernel
  have hle : p ≤ q := by decide
  have hinside : d.clamp ⟨1, 1⟩ = ⟨1, 1⟩ := by decide +kernel
  have hp : d.clamp p = ⟨0, 2⟩ := by decide +kernel
  have hq : d.clamp q = ⟨1, 2⟩ := by decide +kernel
  obtain ⟨-, -, hmono, hlast, hrange, hindex⟩ := clamp_retracts t hsize
  have hforwards := (hrange ⟨p, q⟩).2.2.1 hle
  have hbackwards := (hrange ⟨q, p⟩).2.2.2.1 hle
  refine ⟨hsize, ⟨hle, hmono p q hle⟩, ⟨hinside, hlast q _ hinside⟩, ?_, ?_,
    hindex.clampSelection ⟨⟨7, 0⟩, ⟨0, 9⟩⟩⟩
  · exact hforwards.trans (by rw [hp, hq])
  · exact hbackwards.trans (by rw [hq])

end Document

end FishCheck
