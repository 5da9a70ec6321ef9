import FishCheck.Text.Basic

/-!
# Order of texts

Texts are ordered by the code points of their characters, a proper beginning of a text
before the text. This is also the order of their UTF-8 bytes.
-/

namespace FishCheck

namespace Text

/-- Compares two texts character by character. -/
def compare : Text → Text → Ordering
  | [], [] => .eq
  | [], _ :: _ => .lt
  | _ :: _, [] => .gt
  | a :: as, b :: bs => (Ord.compare a.toNat b.toNat).then (compare as bs)

/-- Whether a text comes no later than another. -/
def atMost (s t : Text) : Bool := compare s t != .gt

/-- Sorts texts and drops repetitions. -/
def sortUnique (ts : List Text) : List Text := (ts.mergeSort atMost).eraseDups

end Text

end FishCheck
