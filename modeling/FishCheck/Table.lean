/-!
# Tables

A table maps keys to values. It is a list of pairs in which each key comes at most
once in effect: a look-up takes the first pair of a key, setting a key replaces its
pair or adds one, and removing a key removes all its pairs.

Main results:

- Theorems `get_set`, `get_erase`: a change shows at its own key and nowhere else.
-/

namespace FishCheck

/-- A table from keys to values. -/
structure Table (κ α : Type) where
  pairs : List (κ × α) := []
deriving Repr

namespace Table

variable {κ α : Type} [DecidableEq κ]

/-- The value of a key. -/
def get? (t : Table κ α) (k : κ) : Option α := (t.pairs.find? fun p => p.1 = k).map (·.2)

/-- Replaces the pair of a key, or adds one at the end. -/
def setPair (k : κ) (a : α) : List (κ × α) → List (κ × α)
  | [] => [(k, a)]
  | p :: ps => if p.1 = k then (k, a) :: ps else p :: setPair k a ps

/-- Sets the value of a key. -/
def set (t : Table κ α) (k : κ) (a : α) : Table κ α := ⟨setPair k a t.pairs⟩

/-- Removes a key. -/
def erase (t : Table κ α) (k : κ) : Table κ α := ⟨t.pairs.filter fun p => p.1 ≠ k⟩

/-- Changes the value of a key that is there. -/
def update (t : Table κ α) (k : κ) (f : α → α) : Table κ α :=
  match t.get? k with
  | some a => t.set k (f a)
  | none => t

/-- Setting a key shows at that key and nowhere else. -/
theorem get_set (t : Table κ α) (k : κ) (a : α) (j : κ) :
    (t.set k a).get? j = if j = k then some a else t.get? j := by
  obtain ⟨ps⟩ := t
  simp only [set, get?]
  induction ps with
  | nil =>
    by_cases h : j = k
    · simp [setPair, h]
    · simp [setPair, h, Ne.symm h]
  | cons p ps ih =>
    by_cases hp : p.1 = k
    · by_cases h : j = k
      · simp [setPair, hp, h]
      · have hk : ¬ k = j := fun e => h e.symm
        simp [setPair, hp, h, hk]
    · by_cases hj : p.1 = j
      · have : ¬ j = k := fun e => hp (hj.trans e)
        simp [setPair, hj, this]
      · simp only [setPair, hp, if_false, List.find?_cons, hj, decide_false]
        exact ih

/-- Removing a key shows at that key and nowhere else. -/
theorem get_erase (t : Table κ α) (k j : κ) :
    (t.erase k).get? j = if j = k then none else t.get? j := by
  obtain ⟨ps⟩ := t
  simp only [erase, get?]
  induction ps with
  | nil => simp
  | cons p ps ih =>
    by_cases hp : p.1 = k
    · by_cases h : j = k
      · simp [h]
      · have hk : ¬ k = j := fun e => h e.symm
        simpa [hp, h, hk] using ih
    · by_cases hj : p.1 = j
      · have hjk : ¬ j = k := fun e => hp (hj.trans e)
        simp [hj, hjk]
      · simpa [List.filter_cons, hp, hj] using ih

/-- Changing a key shows at that key and nowhere else. -/
theorem get_update (t : Table κ α) (k : κ) (f : α → α) (j : κ) :
    (t.update k f).get? j = if j = k then (t.get? k).map f else t.get? j := by
  unfold update
  cases h : t.get? k with
  | none => by_cases hj : j = k <;> simp [hj, h]
  | some a => simp [get_set]

end Table

end FishCheck
