import FishCheck.Text.Utf8

/-!
# Paths

A path is a sequence of bytes, as the file system takes it. It is read as
components: a leading slash is the root, repeated and trailing slashes and `.`
components other than a leading one are spelling only, and `..` stays a component of
its own. Two paths with the same components name the same place and compare equal.

Main results:

- Theorem `join_absolute`: joining an absolute path replaces the left side.
-/

namespace FishCheck

/-- A path of the file system. -/
structure Path where
  bytes : Bytes
deriving DecidableEq, Repr

namespace Path

/-- The slash between components. -/
def slash : UInt8 := 0x2F

/-- The dot before an extension. -/
def dot : UInt8 := 0x2E

/-- The path that a text spells. -/
def ofText (t : Text) : Path := ⟨Utf8.encode t⟩

/-- The text that shows a path, with U+FFFD for bytes that are no text. -/
def toText (p : Path) : Text := Utf8.lenient p.bytes

instance : Coe String Path := ⟨fun s => ofText s.toList⟩

/-! ## Components -/

/-- One component of a path. -/
inductive Component
  | root
  | current
  | parent
  | name (bytes : Bytes)
deriving DecidableEq, Repr

namespace Component

/-- The bytes that spell a component. -/
def bytes : Component → Bytes
  | .root => [slash]
  | .current => [dot]
  | .parent => [dot, dot]
  | .name b => b

/-- Root, `.`, `..`, then names. -/
def rank : Component → Nat
  | .root => 0
  | .current => 1
  | .parent => 2
  | .name _ => 3

end Component

/-- Compares byte sequences, a proper prefix first. -/
def compareBytes : Bytes → Bytes → Ordering
  | [], [] => .eq
  | [], _ :: _ => .lt
  | _ :: _, [] => .gt
  | a :: as, b :: bs => (compare a.toNat b.toNat).then (compareBytes as bs)

/-- Compares components by rank, names by their bytes. -/
def Component.compare (a b : Component) : Ordering :=
  (Ord.compare a.rank b.rank).then (compareBytes a.bytes b.bytes)

/-- Compares component lists, a proper prefix first. -/
def compareComponents : List Component → List Component → Ordering
  | [], [] => .eq
  | [], _ :: _ => .lt
  | _ :: _, [] => .gt
  | a :: as, b :: bs => (a.compare b).then (compareComponents as bs)

/-- Cuts bytes at the slashes. -/
def splitSlashes : Bytes → List Bytes
  | [] => [[]]
  | b :: bs =>
    if b = slash then [] :: splitSlashes bs
    else match splitSlashes bs with
      | [] => [[b]]
      | s :: ss => (b :: s) :: ss

/-- The component that a stretch between slashes spells, if it counts as one. -/
def component? (segment : Bytes) : Option Component :=
  if segment = [] ∨ segment = [dot] then none
  else if segment = [dot, dot] then some .parent
  else some (.name segment)

/-- Whether the path starts at the root. -/
def isAbsolute (p : Path) : Bool := p.bytes.head? == some slash

/-- The component at the front of a path: the root, a leading `.`, or nothing special. -/
def leading (p : Path) : List Component :=
  if p.isAbsolute then [.root]
  else if (splitSlashes p.bytes).head? = some [dot] then [.current]
  else []

/-- The components of a path. -/
def components (p : Path) : List Component :=
  p.leading ++ (splitSlashes p.bytes).filterMap component?

/-- Compares paths component by component. -/
def compare (p q : Path) : Ordering := compareComponents p.components q.components

/-- Whether two paths have the same components. -/
def same (p q : Path) : Bool := decide (p.components = q.components)

/-! ## Names and extensions -/

/-- The last component, if it is a name. -/
def fileName? (p : Path) : Option Bytes :=
  match p.components.getLast? with
  | some (.name b) => some b
  | _ => none

/-- The part of a name after its last dot; a name whose only dot leads it has none. -/
def extensionOf? (name : Bytes) : Option Bytes :=
  let after := (name.reverse.takeWhile (· ≠ dot)).reverse
  if after.length + 1 < name.length then some after else none

/-- The extension of the last component. -/
def extension? (p : Path) : Option Bytes := p.fileName?.bind extensionOf?

/-- Lower case for the ASCII letters. -/
def lowerByte (b : UInt8) : UInt8 := if 0x41 ≤ b ∧ b ≤ 0x5A then b + 0x20 else b

/-- Whether a path ends in the given extension, in any case of its ASCII letters. -/
def hasExtension (p : Path) (extension : Bytes) : Bool :=
  p.extension?.any fun found => found.map lowerByte = extension.map lowerByte

/-! ## Joining -/

/-- Appends a path: an absolute one replaces the left side, a relative one follows a
slash. -/
def join (p q : Path) : Path :=
  if q.isAbsolute then q
  else if p.bytes.getLast?.all (· = slash) then ⟨p.bytes ++ q.bytes⟩
  else ⟨p.bytes ++ [slash] ++ q.bytes⟩

/-- Drops a stretch of slashes and `.` components at the front. -/
def trimFront : List Bytes → List Bytes
  | [] => []
  | s :: ss => if s = [] ∨ s = [dot] then trimFront ss else s :: ss

/-- Puts a slash between segments. -/
def joinSegments (segments : List Bytes) : Bytes := [slash].intercalate segments

/-- Removes a leading `./`, so that a path under the working directory is spelled
without it. -/
def withoutCurrent (p : Path) : Path :=
  match splitSlashes p.bytes with
  | first :: rest =>
    if first = [dot] then
      ⟨joinSegments (trimFront (trimFront rest).reverse).reverse⟩
    else p
  | [] => p

theorem join_absolute {p q : Path} (h : q.isAbsolute = true) : p.join q = q := by
  simp [join, h]

end Path

end FishCheck
