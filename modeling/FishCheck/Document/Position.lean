/-!
# Positions and ranges

An editor names a place in a document by a line and a character, both counted from
zero; the character counts UTF-16 code units. Positions are ordered by line, then
by character.

Main results:

- Theorems `le_refl`, `le_trans`, `le_total`, `le_antisymm`: positions are in a
  linear order.
-/

namespace FishCheck

/-- A place in a document, as an editor names it. -/
structure Position where
  /-- Line, counted from zero. -/
  line : Nat
  /-- UTF-16 code units before the place on its line. -/
  character : Nat
deriving DecidableEq, Repr

/-- A stretch of a document between two positions. -/
structure Range where
  start : Position
  stop : Position
deriving DecidableEq, Repr

namespace Position

/-- Positions are compared by line, then by character. -/
protected def le (p q : Position) : Prop :=
  p.line < q.line ∨ (p.line = q.line ∧ p.character ≤ q.character)

instance : LE Position := ⟨Position.le⟩

instance (p q : Position) : Decidable (p ≤ q) :=
  inferInstanceAs (Decidable (p.line < q.line ∨ (p.line = q.line ∧ p.character ≤ q.character)))

theorem le_def (p q : Position) :
    p ≤ q ↔ p.line < q.line ∨ (p.line = q.line ∧ p.character ≤ q.character) :=
  Iff.rfl

theorem le_refl (p : Position) : p ≤ p := by
  simp [le_def]

theorem le_trans {p q r : Position} (hpq : p ≤ q) (hqr : q ≤ r) : p ≤ r := by
  rw [le_def] at *
  omega

theorem le_total (p q : Position) : p ≤ q ∨ q ≤ p := by
  rw [le_def, le_def]
  omega

theorem le_antisymm {p q : Position} (hpq : p ≤ q) (hqp : q ≤ p) : p = q := by
  rw [le_def] at *
  cases p
  cases q
  simp_all
  omega

end Position

end FishCheck
