import FishCheck.Settings.Source
import FishCheck.Table

/-!
# File trees

The files that a run can see form a tree, given as a table from locations to nodes. A
location is the list of names from the root. Symbolic links make a path and the
location it leads to two things: a path is followed name by name, and each link on the
way is replaced by its target, a limited number of times.

Main results:

- Theorem `node_put_self`: a node that was put is there.
-/

namespace FishCheck

/-- The names from the root to a place. -/
abbrev Location := List Bytes

/-- Why a path cannot be used. -/
inductive Fault
  | missing
  | accessDenied
  | badFormat
  | notDirectory
  | isDirectory
  | nameTooLong
  | linkLoop
  /-- A path or argument holds a zero byte. -/
  | zeroByte
deriving DecidableEq, Repr

/-- The wording of a fault, with its number where the system has one. -/
def Fault.message : Fault → Text
  | .missing => "No such file or directory (os error 2)"
  | .badFormat => "Exec format error (os error 8)"
  | .accessDenied => "Permission denied (os error 13)"
  | .notDirectory => "Not a directory (os error 20)"
  | .isDirectory => "Is a directory (os error 21)"
  | .nameTooLong => "File name too long (os error 36)"
  | .linkLoop => "Too many levels of symbolic links (os error 40)"
  | .zeroByte => "file name contained an unexpected NUL byte"

/-- What can be at a location. -/
inductive Node
  | file (content : Bytes) (executable : Bool)
  | directory
  | link (target : Path)
  /-- A program that the system brings along. -/
  | tool (name : Text)
  /-- A file that is always empty. -/
  | void
deriving DecidableEq, Repr

/-- A tree of files; the root is always a directory. -/
structure Tree where
  nodes : Table Location Node := {}
deriving Repr

namespace Tree

/-! ## Nodes -/

/-- The node at a location. -/
def node? (t : Tree) (l : Location) : Option Node :=
  if l = [] then some .directory else t.nodes.get? l

/-- Puts a node at a location, in the place of one that is there. -/
def put (t : Tree) (l : Location) (n : Node) : Tree := ⟨t.nodes.set l n⟩

/-- Removes the node at a location. -/
def remove (t : Tree) (l : Location) : Tree := ⟨t.nodes.erase l⟩

/-- Makes a directory at a location and at all places above it, unless something is
there. -/
def makeDirectories (t : Tree) (l : Location) : Tree :=
  (List.range l.length).foldl (fun t n =>
    let above := l.take (n + 1)
    if (t.node? above).isSome then t else t.put above .directory) t

/-- The names and nodes in a directory, in no meaningful order. -/
def children (t : Tree) (l : Location) : List (Bytes × Node) :=
  t.nodes.pairs.filterMap fun (place, n) =>
    match place.getLast? with
    | some name => if place.dropLast = l then some (name, n) else none
    | none => none

/-- A node that was put is there. -/
theorem node_put_self (t : Tree) {l : Location} (h : l ≠ []) (n : Node) :
    (t.put l n).node? l = some n := by
  simp [node?, put, h, Table.get_set]

/-! ## Following paths -/

/-- How many links a path may lead through. -/
def maxLinks : Nat := 40

/-- The longest name, in bytes. -/
def maxName : Nat := 255

/-- The longest path, in bytes. -/
def maxPath : Nat := 4095

/-- Where a path leads: a location in a directory that exists, and the node there if
there is one. -/
structure Spot where
  location : Location
  node? : Option Node

/-- The components of a path as steps. A path that ends in a slash or in `.` has to lead
to a directory, which an additional step says. -/
def steps (p : Path) : List Path.Component :=
  let segments := Path.splitSlashes p.bytes
  let plain := (if p.isAbsolute then [.root] else []) ++ segments.filterMap Path.component?
  let ends := segments.getLast?.any fun s => s = [] ∨ s = [Path.dot]
  if ends then plain ++ [.current] else plain

/-- Follows steps from a location; a link at the end is followed if asked. -/
def follow (t : Tree) (last : Bool) (links : Nat) (here : Location) :
    List Path.Component → Except Fault Spot
  | [] => .ok ⟨here, t.node? here⟩
  | .root :: rest => t.follow last links [] rest
  | .current :: rest => t.follow last links here rest
  | .parent :: rest => t.follow last links here.dropLast rest
  | .name n :: rest =>
    if maxName < n.length then .error .nameTooLong
    else
      let there := here ++ [n]
      match t.node? there with
      | none => if rest.isEmpty then .ok ⟨there, none⟩ else .error .missing
      | some .directory => t.follow last links there rest
      | some (.link target) =>
        if rest.isEmpty ∧ last = false then .ok ⟨there, some (.link target)⟩
        else
          match links with
          | 0 => .error .linkLoop
          | links + 1 => t.follow last links here (steps target ++ rest)
      | some n => if rest.isEmpty then .ok ⟨there, some n⟩ else .error .notDirectory
termination_by rest => (links, rest.length)

/-- Where a path leads from a working directory. -/
def resolve (t : Tree) (cwd : Location) (p : Path) (last : Bool) : Except Fault Spot :=
  if p.bytes = [] then .error .missing
  else if 0 ∈ p.bytes then .error .zeroByte
  else if maxPath < p.bytes.length then .error .nameTooLong
  else t.follow last maxLinks cwd (steps p)

/-- The node that a path leads to, through all links. -/
def find (t : Tree) (cwd : Location) (p : Path) : Except Fault (Location × Node) :=
  (t.resolve cwd p true).bind fun spot =>
    match spot.node? with
    | some n => .ok (spot.location, n)
    | none => .error .missing

/-! ## Questions -/

/-- Whether something is at a path. -/
def present (t : Tree) (cwd : Location) (p : Path) : Bool := (t.find cwd p).toOption.isSome

/-- Whether a file is at a path. -/
def isFile (t : Tree) (cwd : Location) (p : Path) : Bool :=
  match t.find cwd p with
  | .ok (_, .file _ _) | .ok (_, .tool _) => true
  | _ => false

/-- Whether a directory is at a path. -/
def isDirectory (t : Tree) (cwd : Location) (p : Path) : Bool :=
  match t.find cwd p with
  | .ok (_, .directory) => true
  | _ => false

/-- What stands for the code of a program that the system brings along: bytes that are no
text. -/
def machineCode : Bytes := [0x7F, 0x45, 0x4C, 0x46, 0xFF]

/-- The bytes of the file at a path. -/
def read (t : Tree) (cwd : Location) (p : Path) : Except Fault Bytes :=
  match t.find cwd p with
  | .ok (_, .file content _) => .ok content
  | .ok (_, .tool _) => .ok machineCode
  | .ok (_, .directory) => .error .isDirectory
  | .ok _ => .ok []
  | .error f => .error f

/-- The path that spells a location. -/
def pathOf (l : Location) : Path :=
  match l with
  | [] => ⟨[Path.slash]⟩
  | _ => ⟨l.flatMap fun name => Path.slash :: name⟩

/-- What settings see of a tree from a working directory. -/
def view (t : Tree) (cwd : Location) : FileView where
  present := t.present cwd
  isFile := t.isFile cwd
  read p := (t.read cwd p).mapError Fault.message

/-! ## Changes -/

/-- Writes the bytes of a file: through links, in the place of what was there, which
keeps its mode.  A program of the system becomes a file like others. -/
def write (t : Tree) (cwd : Location) (p : Path) (content : Bytes) : Except Fault Tree :=
  match t.resolve cwd p true with
  | .error f => .error f
  | .ok ⟨l, none⟩ => .ok (t.put l (.file content false))
  | .ok ⟨l, some (.file _ executable)⟩ => .ok (t.put l (.file content executable))
  | .ok ⟨l, some (.tool _)⟩ => .ok (t.put l (.file content true))
  | .ok ⟨_, some .directory⟩ => .error .isDirectory
  | .ok _ => .ok t

/-! ## Laying out -/

/-- What is laid out at a path. -/
inductive Placement
  | file (content : Bytes) (executable : Bool)
  | directory
  | link (target : Path)
  /-- Nothing is left there. -/
  | removal
deriving Repr

/-- Makes the directories that a path leads through. -/
def makeParents (t : Tree) (p : Path) : Tree :=
  let names := p.components.filterMap fun
    | .name n => some n
    | _ => none
  t.makeDirectories names.dropLast

/-- Lays something out at an absolute path. A file that is there keeps its mode, unless
it is made executable. -/
def place (t : Tree) (p : Path) (what : Placement) : Tree :=
  let t := t.makeParents p
  match what with
  | .directory =>
    match t.resolve [] p true with
    | .ok spot => t.makeDirectories spot.location
    | .error _ => t
  | .file content executable =>
    match t.write [] p content with
    | .ok t =>
      match t.find [] p with
      | .ok (l, .file content before) => t.put l (.file content (executable || before))
      | _ => t
    | .error _ => t
  | .link target =>
    match t.resolve [] p false with
    | .ok spot => t.put spot.location (.link target)
    | .error _ => t
  | .removal =>
    match t.resolve [] p false with
    | .ok spot => t.remove spot.location
    | .error _ => t

end Tree

end FishCheck
