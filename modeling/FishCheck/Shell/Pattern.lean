import FishCheck.Text.Basic

/-!
# Shell patterns

A pattern matches a whole text: `*` stands for any stretch, `?` for one character and
a bracket for one character of a set.

Main results:

- Theorem `matches_literal`: a pattern of plain characters matches exactly itself.
-/

namespace FishCheck

namespace Shell

/-- A part of a pattern. -/
inductive Atom
  | char (c : Char)
  | any
  | many
  | set (negated : Bool) (ranges : List (Char × Char))
deriving DecidableEq, Repr

namespace Pattern

/-- Whether a part that stands for one character stands for this one. -/
def Atom.takes (c : Char) : Atom → Bool
  | .char d => c == d
  | .any => true
  | .many => false
  | .set negated ranges => (ranges.any fun r => r.1 ≤ c && c ≤ r.2) != negated

/-- Whether a pattern matches a text. -/
def isMatch : List Atom → Text → Bool
  | [], t => t.isEmpty
  | .many :: rest, [] => isMatch rest []
  | _ :: _, [] => false
  | .many :: rest, c :: cs => isMatch rest (c :: cs) || isMatch (.many :: rest) cs
  | a :: rest, c :: cs => Atom.takes c a && isMatch rest cs
termination_by p t => p.length + t.length

/-- Reads the items of a set up to its closing bracket. -/
def readRanges : Text → Option (List (Char × Char) × Text)
  | [] => none
  | ']' :: rest => some ([], rest)
  | a :: '-' :: ']' :: rest => some ([(a, a), ('-', '-')], rest)
  | a :: '-' :: b :: rest => (readRanges rest).map fun (rs, r) => ((a, b) :: rs, r)
  | a :: rest => (readRanges rest).map fun (rs, r) => ((a, a) :: rs, r)

/-- Reads a set after its opening bracket; a bracket right at the front is an item. -/
def readSet (t : Text) : Option (Atom × Text) :=
  let (negated, t) := match t with
    | '!' :: rest | '^' :: rest => (true, rest)
    | _ => (false, t)
  match t with
  | ']' :: rest => (readRanges rest).map fun (rs, r) => (.set negated ((']', ']') :: rs), r)
  | _ => (readRanges t).map fun (rs, r) => (.set negated rs, r)

/-- Reads a pattern from characters and whether each is quoted; fuel is the number of
characters. -/
def read : Nat → List (Char × Bool) → List Atom
  | 0, _ => []
  | _, [] => []
  | fuel + 1, (c, quoted) :: rest =>
    if quoted then .char c :: read fuel rest
    else if c = '*' then .many :: read fuel rest
    else if c = '?' then .any :: read fuel rest
    else if c = '[' then
      match readSet (rest.map (·.1)) with
      | some (a, after) => a :: read fuel (rest.drop (rest.length - after.length))
      | none => .char c :: read fuel rest
    else .char c :: read fuel rest

/-- The pattern of quoted and unquoted characters. -/
def ofCharacters (cs : List (Char × Bool)) : List Atom := read cs.length cs

/-- Whether characters have a meaning as a pattern. -/
def isPattern (cs : List (Char × Bool)) : Bool :=
  cs.any fun (c, quoted) => !quoted && (c == '*' || c == '?' || c == '[')

/-- A pattern of plain characters matches exactly itself. -/
theorem matches_literal (s t : Text) : isMatch (s.map .char) t = (s == t) := by
  induction s generalizing t with
  | nil => cases t <;> simp [isMatch]
  | cons c cs ih =>
    cases t with
    | nil => simp [isMatch]
    | cons d ds =>
      simp [isMatch, Atom.takes, ih]
      grind

end Pattern

end Shell

end FishCheck
