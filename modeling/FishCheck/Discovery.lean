import FishCheck.Host.Tree
import FishCheck.Ignore.Rules
import FishCheck.Lint

/-!
# Finding the files to work on

The command line names files and directories. Named files are taken as they are;
directories are searched for fish files, hidden ones included, leaving out what ignore
files rule out. The result is sorted by components and holds every path once.

Main results:

- Theorem `mem_of_mem_sortPaths`: sorting and removing repetitions adds no path.
-/

namespace FishCheck

namespace Discovery

/-! ## Ignore files -/

/-- The rules that the ignore files of one directory give, the strongest kind first. -/
structure Layer where
  location : Location
  kinds : List (List Ignore.Rule)
deriving Repr

/-- The ignore files of a directory, the strongest kind first. -/
def ruleFiles : List Path := [".ignore", ".gitignore", ".git/info/exclude"]

/-- The rules of the ignore files in a directory. -/
def layerAt (t : Tree) (l : Location) : Layer :=
  ⟨l, ruleFiles.map fun p =>
    match t.read l p with
    | .ok content => Ignore.ofFile content
    | .error _ => []⟩

/-- The path of a location below a directory. -/
def below (directory l : Location) : Bytes := Path.joinSegments (l.drop directory.length)

/-- What layers, the nearest first, say about a location: a stronger kind goes before a
nearer layer. -/
def verdict? (layers : List Layer) (l : Location) (isDirectory : Bool) : Option Ignore.Verdict :=
  (List.range ruleFiles.length).findSome? fun kind =>
    layers.findSome? fun layer =>
      Ignore.verdict? (layer.kinds.getD kind []) (below layer.location l) isDirectory

/-- Whether a location is left out. -/
def isIgnored (layers : List Layer) (l : Location) (isDirectory : Bool) : Bool :=
  verdict? layers l isDirectory == some .ignored

/-! ## Walking -/

/-- Whether a path has the extension of fish files. -/
def isFishPath (p : Path) : Bool := p.hasExtension Lint.extension

/-- The paths below a directory that are not left out, spelled after the path of the
directory; fuel bounds the depth. -/
def walk (t : Tree) : Nat → List Layer → Location → Path → List Path
  | 0, _, _, _ => []
  | fuel + 1, layers, l, spelled =>
    (t.children l).flatMap fun (name, node) =>
      let there := l ++ [name]
      let path := spelled.join ⟨name⟩
      let isDirectory := node = .directory
      if isIgnored layers there isDirectory then []
      else if isDirectory then
        path :: walk t fuel (layerAt t there :: layers) there path
      else [path]

/-- The layers above a location, itself included, the nearest first. -/
def layersAbove (t : Tree) (l : Location) : List Layer :=
  ((List.range (l.length + 1)).map fun n => layerAt t (l.take n)).reverse

/-- The entries below a directory that are not left out. -/
def entries (t : Tree) (cwd : Location) (p : Path) : List Path :=
  match t.find cwd p with
  | .ok (l, .directory) => walk t (t.nodes.pairs.length + 1) (layersAbove t l) l p
  | _ => []

/-- The fish files below a directory. -/
def filesBelow (t : Tree) (cwd : Location) (p : Path) : List Path :=
  (entries t cwd p).filter fun e => t.isFile cwd e && isFishPath e

/-! ## Arguments -/

/-- The paths that one argument stands for; nothing when it is neither a file nor a
directory. -/
def expand? (t : Tree) (cwd : Location) (p : Path) : Option (List Path) :=
  if t.isFile cwd p then some [p.withoutCurrent]
  else if t.isDirectory cwd p then some ((filesBelow t cwd p).map Path.withoutCurrent)
  else none

/-- The paths that all arguments stand for; the first argument that stands for nothing is
the error. -/
def expandAll (t : Tree) (cwd : Location) : List Text → Except Text (List Path)
  | [] => .ok []
  | arg :: args =>
    match expand? t cwd (Path.ofText arg) with
    | none => .error arg
    | some paths => (expandAll t cwd args).map (paths ++ ·)

/-- Removes paths that have the same components as the one before them. -/
def dropRepetitions : List Path → List Path
  | [] => []
  | [p] => [p]
  | p :: q :: rest =>
    if p.same q then dropRepetitions (p :: rest) else p :: dropRepetitions (q :: rest)

/-- Whether a path comes before another one or has the same components. -/
def precedes (p q : Path) : Bool := p.compare q != .gt

/-- Sorts paths by components; of paths with the same components the first one stays. -/
def sortPaths (paths : List Path) : List Path := dropRepetitions (paths.mergeSort precedes)

/-- The files to work on; the error is the argument that stands for nothing. -/
def find (t : Tree) (cwd : Location) (args : List Text) : Except Text (List Path) :=
  (expandAll t cwd args).map sortPaths

/-- The wording when an argument stands for nothing. -/
def missing (arg : Text) : Text := "No such file or directory: " ++ arg

/-! ## First facts -/

/-- Removing repetitions only removes paths. -/
theorem mem_of_mem_dropRepetitions {p : Path} {ps : List Path} (h : p ∈ dropRepetitions ps) :
    p ∈ ps := by
  induction ps using dropRepetitions.induct <;> grind [dropRepetitions]

/-- Sorting and removing repetitions adds no path. -/
theorem mem_of_mem_sortPaths {p : Path} {ps : List Path} (h : p ∈ sortPaths ps) : p ∈ ps :=
  List.mem_mergeSort.1 (mem_of_mem_dropRepetitions h)

end Discovery

end FishCheck
