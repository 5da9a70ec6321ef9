import FishCheck.Table
import FishCheck.Url.Basic

/-!
# Generations of checker runs

Every checker run of a document takes a fresh number, and only the run with the
newest number of its document may publish. Closing a document retires its number, so
that a late run finds itself outdated. The numbers come from one counter for all
documents, so a document that is opened again never meets an old one.

Main results:

- Theorem `not_isCurrent_retire`: no number of a retired document is current.
- Theorem `begin_fresh`: a new number is larger than all before it.
-/

namespace FishCheck

/-- The numbers handed out so far, and the newest one of each document. -/
structure Generations where
  /-- How many numbers were handed out. -/
  issued : Nat := 0
  latest : Table Url Nat := {}
deriving Repr

namespace Generations

/-- The number of the next run. -/
def next (g : Generations) : Nat := g.issued + 1

/-- Hands out the next number to a run of a document. -/
def start (g : Generations) (u : Url) : Generations := ⟨g.next, g.latest.set u g.next⟩

/-- Whether a number is the newest one of a document. -/
def isCurrent (g : Generations) (u : Url) (n : Nat) : Bool := g.latest.get? u == some n

/-- Forgets a document; runs still under way for it are outdated. -/
def retire (g : Generations) (u : Url) : Generations := { g with latest := g.latest.erase u }

/-- No number of a retired document is current. -/
theorem not_isCurrent_retire (g : Generations) (u : Url) (n : Nat) :
    (g.retire u).isCurrent u n = false := by
  simp [retire, isCurrent, Table.get_erase]

/-- A new number is larger than all numbers handed out before. -/
theorem begin_fresh (g : Generations) : g.issued < g.next := by
  simp [next]

end Generations

end FishCheck
