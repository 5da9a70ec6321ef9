import FishCheck.Decimal

/-!
# TOML documents

A configuration file is a table of keys and values. Every key and value remembers
where it stands in the file, so that an error can point at it. A place is kept as the
number of characters that are left from there to the end of the file.

Main results:

- Theorem `find_insert_self`: a key that was inserted is found.
-/

namespace FishCheck

namespace Toml

/-- A stretch of a file, by the characters left at its start and at its end. -/
structure Span where
  start : Nat
  stop : Nat
deriving DecidableEq, Repr

/-- A key with the stretch that spells it, quotes included. -/
structure Key where
  name : Text
  span : Span
deriving DecidableEq, Repr

/-- A floating-point number: a fraction or one of the special values. -/
inductive Float
  | finite (d : Decimal)
  | infinite (negative : Bool)
  | notANumber
deriving DecidableEq, Repr

/-- A value without parts. -/
inductive Scalar
  | string (t : Text)
  | integer (i : Int)
  | float (f : Float)
  | boolean (b : Bool)
  | dateTime
deriving DecidableEq, Repr

/-- How a table came to be, which decides what may be added to it. -/
inductive Origin
  /-- By a header of its own. -/
  | header
  /-- On the way of another table's header. -/
  | implied
  /-- On the way of a dotted key. -/
  | dotted
  /-- Between braces. -/
  | inline
deriving DecidableEq, Repr

/-- A value with its place. -/
inductive Node
  | scalar (span : Span) (value : Scalar)
  | array (span : Span) (items : List Node)
  /-- Tables under a header with double brackets; the last one comes first. -/
  | tables (span : Span) (items : List Node)
  | table (span : Span) (origin : Origin) (entries : List (Key × Node))
deriving Repr

instance : Inhabited Node := ⟨.scalar ⟨0, 0⟩ .dateTime⟩

/-- The place of a value. -/
def Node.span : Node → Span
  | .scalar s _ | .array s _ | .tables s _ | .table s _ _ => s

/-- The entries of a table in the order in which their keys first came. -/
abbrev Entries := List (Key × Node)

namespace Entries

/-- The value of a key. -/
def find? (name : Text) : Entries → Option Node
  | [] => none
  | (k, v) :: rest => if k.name = name then some v else find? name rest

/-- Sets the value of a key, in its place if it is there already. -/
def insert (key : Key) (value : Node) : Entries → Entries
  | [] => [(key, value)]
  | (k, v) :: rest =>
    if k.name = key.name then (k, value) :: rest else (k, v) :: insert key value rest

/-- A key that was inserted is found. -/
theorem find_insert_self (key : Key) (value : Node) (es : Entries) :
    find? key.name (insert key value es) = some value := by
  induction es with
  | nil => simp [insert, find?]
  | cons e es ih =>
    obtain ⟨k, v⟩ := e
    by_cases h : k.name = key.name <;> simp [insert, find?, h, ih]

end Entries

/-! ## Building a document -/

/-- Goes down a path of keys and changes the entries found there. A missing table is
made with the given origin. A dotted key adds only to tables that no header defined;
a header goes into the last of several tables. -/
def descend (viaDots : Bool) (change : Entries → Option Entries) :
    List Key → Entries → Option Entries
  | [], es => change es
  | k :: ks, es =>
    match Entries.find? k.name es with
    | none => do
      let inner ← descend viaDots change ks []
      let origin := if viaDots then .dotted else .implied
      pure (Entries.insert k (.table k.span origin inner) es)
    | some (.table span origin entries) =>
      if origin = .inline ∨ (viaDots = true ∧ origin = .header) then none
      else do
        let inner ← descend viaDots change ks entries
        pure (Entries.insert k (.table span origin inner) es)
    | some (.tables span (.table s origin entries :: earlier)) =>
      if viaDots then none
      else do
        let inner ← descend viaDots change ks entries
        pure (Entries.insert k (.tables span (.table s origin inner :: earlier)) es)
    | some _ => none

/-- Adds a pair under a dotted key; a key comes once. -/
def addPair (path : List Key) (value : Node) (es : Entries) : Option Entries :=
  match path.reverse with
  | [] => none
  | key :: way => descend true
      (fun es => if (Entries.find? key.name es).isSome then none
        else some (Entries.insert key value es)) way.reverse es

/-- Opens the table of a header; it may have been implied before, but not defined. -/
def openTable (path : List Key) (span : Span) (es : Entries) : Option Entries :=
  match path.reverse with
  | [] => none
  | key :: way => descend false
      (fun es => match Entries.find? key.name es with
        | none => some (Entries.insert key (.table span .header []) es)
        | some (.table _ .implied entries) =>
          some (Entries.insert key (.table span .header entries) es)
        | some _ => none) way.reverse es

/-- Opens one more table of a header with double brackets. -/
def openElement (path : List Key) (span : Span) (es : Entries) : Option Entries :=
  match path.reverse with
  | [] => none
  | key :: way => descend false
      (fun es => match Entries.find? key.name es with
        | none => some (Entries.insert key (.tables span [.table span .header []]) es)
        | some (.tables first items) =>
          some (Entries.insert key (.tables first (.table span .header [] :: items)) es)
        | some _ => none) way.reverse es

/-- Changes the entries of the table that the last header opened. -/
def inOpened (change : Entries → Option Entries) : List Key → Entries → Option Entries
  | [], es => change es
  | k :: ks, es =>
    match Entries.find? k.name es with
    | some (.table span origin entries) => do
      let inner ← inOpened change ks entries
      pure (Entries.insert k (.table span origin inner) es)
    | some (.tables span (.table s origin entries :: earlier)) => do
      let inner ← inOpened change ks entries
      pure (Entries.insert k (.tables span (.table s origin inner :: earlier)) es)
    | _ => none

end Toml

end FishCheck
