import FishCheck.Decimal

/-!
# JSON values

Editors speak JSON. A value keeps the members of an object in the order in which they
came, one for each name; whole numbers are kept apart from fractions, since a setting
that asks for a whole number takes no fraction.

Main results:

- Theorem `get_put_self`: a member that was put can be got.
-/

namespace FishCheck

/-- A JSON value. -/
inductive Json
  | null
  | bool (b : Bool)
  | int (i : Int)
  | real (d : Decimal)
  | str (t : Text)
  | arr (items : List Json)
  | obj (members : List (Text × Json))
deriving Repr

namespace Json

instance : Inhabited Json := ⟨.null⟩

instance : Coe String Json := ⟨fun s => .str s.toList⟩

/-! ## Members of objects -/

/-- Sets a member: in its place if the name is there already, else at the end. -/
def put (name : Text) (value : Json) : List (Text × Json) → List (Text × Json)
  | [] => [(name, value)]
  | (n, v) :: rest => if n = name then (n, value) :: rest else (n, v) :: put name value rest

/-- The member of a name. -/
def lookup (name : Text) : List (Text × Json) → Option Json
  | [] => none
  | (n, v) :: rest => if n = name then some v else lookup name rest

/-- The member of an object; none for any other value. -/
def get? (j : Json) (name : Text) : Option Json :=
  match j with
  | .obj members => lookup name members
  | _ => none

/-- The member of an object, unless it is absent or null. -/
def given? (j : Json) (name : Text) : Option Json :=
  match j.get? name with
  | some .null => none
  | found => found

/-- A value with members of the given names, which may also be written as the array of all
these members in order. -/
def named (names : List String) (j : Json) : Json :=
  match j with
  | .arr items =>
    if items.length = names.length then .obj ((names.map String.toList).zip items) else j
  | _ => j

/-- The text of a string. -/
def text? : Json → Option Text
  | .str t => some t
  | _ => none

/-- The items of an array. -/
def items? : Json → Option (List Json)
  | .arr items => some items
  | _ => none

/-- A whole number. -/
def int? : Json → Option Int
  | .int i => some i
  | _ => none

/-- A truth value. -/
def bool? : Json → Option Bool
  | .bool b => some b
  | _ => none

/-- A whole number from zero up to a bound. -/
def natUpTo? (bound : Nat) : Json → Option Nat
  | .int (.ofNat n) => if n ≤ bound then some n else none
  | _ => none

/-- The value of an optional part: null when it is absent. -/
def ofOption (f : α → Json) : Option α → Json
  | none => .null
  | some a => f a

/-- A natural number. -/
def ofNat (n : Nat) : Json := .int (Int.ofNat n)

/-- An object from its members. -/
def record (members : List (String × Json)) : Json :=
  .obj (members.map fun (n, v) => (n.toList, v))

/-- A member that was put can be got. -/
theorem get_put_self (name : Text) (value : Json) (members : List (Text × Json)) :
    lookup name (put name value members) = some value := by
  induction members with
  | nil => simp [put, lookup]
  | cons m ms ih =>
    obtain ⟨n, v⟩ := m
    by_cases h : n = name <;> simp [put, lookup, h, ih]

end Json

end FishCheck
