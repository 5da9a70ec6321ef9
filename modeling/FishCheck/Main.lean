import FishCheck.Command.Line

/-!
# The program

The command line as a program: it takes the files below the working directory into a
host, runs the command line there, and then writes the files that changed and what the
report says.
-/

namespace FishCheck

namespace Program

/-- How deep directories are taken into a host. -/
def maxDepth : Nat := 32

/-- Whether a file can run: it names an interpreter. -/
def canRun (content : Bytes) : Bool := (Host.interpreter? (Octets.ofBytes content)).isSome

/-- Takes directory entries into a tree; what cannot be read is left out. -/
def takeEntries : Nat → Array IO.FS.DirEntry → Tree → IO Tree
  | 0, _, tree => pure tree
  | depth + 1, entries, tree => do
    let mut tree := tree
    for entry in entries do
      let path := Path.ofText entry.path.toString.toList
      try
        if ← entry.path.isDir then
          tree ← takeEntries depth (← entry.path.readDir) (tree.place path .directory)
        else
          let content := (← IO.FS.readBinFile entry.path).toList
          tree := tree.place path (.file content (canRun content))
      catch _ => pure ()
    pure tree

/-- The variables that matter to a run. -/
def variableNames : List String := ["PATH", "HOME", "CLICOLOR_FORCE"]

/-- The host that the program runs on. -/
def host : IO Host := do
  let here ← IO.currentDir
  let base := Path.ofText here.toString.toList
  let tree ← takeEntries maxDepth (← here.readDir) (Host.baseTree.place base .directory)
  let mut bindings : List (Text × Text) := []
  for name in variableNames do
    if let some value ← IO.getEnv name then
      bindings := bindings ++ [(name.toList, value.toList)]
  let cwd := match tree.find [] base with
    | .ok (l, _) => l
    | .error _ => []
  pure { tree, cwd, bindings }

/-- All bytes of a stream, as far as the fuel goes. -/
def readAll (stream : IO.FS.Stream) : Nat → IO Bytes
  | 0 => pure []
  | fuel + 1 => do
    let chunk ← stream.read 65536
    if chunk.isEmpty then pure [] else pure (chunk.toList ++ (← readAll stream fuel))

/-- Writes the files of a tree that differ from those of an earlier one. -/
def writeChanges (before after : Tree) : IO Unit := do
  for (l, node) in after.nodes.pairs do
    if let .file content _ := node then
      let same := match before.node? l with
        | some (.file old _) => old == content
        | _ => false
      unless same do
        IO.FS.writeBinFile (String.ofList (Tree.pathOf l).toText) ⟨content.toArray⟩

end Program

end FishCheck

/-- Runs the command line and returns its exit code. -/
def main (args : List String) : IO UInt32 := do
  let words := args.map String.toList
  let host ← FishCheck.Program.host
  let stdin ←
    if FishCheck.Arguments.readsInput words then
      FishCheck.Program.readAll (← IO.getStdin) 65536
    else pure []
  let (after, report) := FishCheck.CommandLine.run FishCheck.Host.run host stdin words
  FishCheck.Program.writeChanges host.tree after.tree
  (← IO.getStdout).putStr (String.ofList report.stdout)
  (← IO.getStderr).putStr (String.ofList report.stderr)
  pure (UInt32.ofNat report.exitCode)
