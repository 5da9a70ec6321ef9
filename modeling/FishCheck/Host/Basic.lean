import FishCheck.Host.Script
import FishCheck.Process

/-!
# Hosts

A host is where the checker and the formatter run: a tree of files, a working directory
and variables. Running an invocation on it gives what the run wrote, or the failure
that kept it from ending by itself, and the files as they are afterwards.
-/

namespace FishCheck

/-- A place where programs run. -/
structure Host where
  tree : Tree
  cwd : Location := []
  bindings : List (Text × Text) := []
  /-- The home directory in the account of the user. -/
  accountHome : Option Path := some "/root"
  /-- How many tools a command runs at once. -/
  processors : Nat := 4

namespace Host

/-! ## The base of a host -/

/-- The programs that a host brings along. -/
def programs : List Text := Script.shellNames ++ ["env".toList] ++ Tools.names

/-- The files of a host before anything is laid out on it. -/
def baseTree : Tree :=
  let programsIn (dir : String) (t : Tree) : Tree :=
    programs.foldl (fun t n => t.place (Path.ofText (dir.toList ++ '/' :: n)) (.file [] true)) t
  let t := programsIn "/usr/bin" {}
  let t : Tree := ⟨⟨t.nodes.pairs.map fun (l, n) =>
    match n, l.getLast? with
    | .file _ _, some name => (l, .tool (Utf8.lenient name))
    | n, _ => (l, n)⟩⟩
  let t := t.place "/bin" (.link "usr/bin")
  let t := t.place "/etc/passwd" (.file (Utf8.encode "root:x:0:0:root:/root:/bin/sh\n") false)
  let t := t.place "/tmp" .directory
  (t.place "/dev" .directory).put [Utf8.encode "dev", Utf8.encode "null"] .void

/-- The files that a view of settings shows. -/
def view (h : Host) : FileView := h.tree.view h.cwd

/-- The value of a variable. -/
def lookup (h : Host) (name : Text) : Option Text := h.bindings.lookup name

/-! ## Runs -/

/-- The fuel of a run. -/
def fuel : Nat := 20000

/-- The failure that a fault at the start of a program is. -/
def startFailure (program : Text) : Fault → Failure
  | .missing => .notFound program
  | .accessDenied => .permissionDenied program
  | .zeroByte => .spawn program "nul byte found in provided data"
  | f => .spawn program f.message

/-- The directory that an invocation runs in. -/
def directoryOf (h : Host) (i : Invocation) : Except Fault Location :=
  match i.cwd with
  | none => .ok h.cwd
  | some p =>
    match h.tree.find h.cwd p with
    | .ok (l, .directory) => .ok l
    | .ok _ => .error .notDirectory
    | .error f => .error f

/-- The tool that an invocation runs, with all its words, and the directory. -/
def prepared (h : Host) (i : Invocation) : Except Fault (Location × Text × List Text) := do
  if (i.program :: i.args).any fun w => w.contains '\x00' then throw .zeroByte
  let cwd ← h.directoryOf i
  let name := Octets.ofText i.program
  let search := ((h.lookup "PATH").map Octets.ofText).getD defaultPath
  let path ← locate h.tree cwd search name
  let (tool, words) ← launchable h.tree cwd 8 path (name :: i.args.map Octets.ofText)
  pure (cwd, tool, words)

/-- The process that an invocation starts as. -/
def start (h : Host) (i : Invocation) (cwd : Location) : Process :=
  let world : World := { tree := h.tree, deadline := i.timeout.filter (0 < ·) }
  let (out, world) := world.newChannel
  let (err, world) := world.newChannel
  { world, cwd
    bindings := ⟨h.bindings.map fun v => (Octets.ofText v.1, Octets.ofText v.2, true)⟩
    stdin := Octets.ofText (i.stdin.getD [])
    sinks := ⟨[(1, .channel out), (2, .channel err)]⟩
    number := 4000 }

/-- Runs an invocation. -/
def run (h : Host) (i : Invocation) : Host × Except Failure Output :=
  if i.program.isEmpty then (h, .error .emptyCommand)
  else match h.prepared i with
    | .error f => (h, .error (startFailure i.program f))
    | .ok (cwd, tool, words) =>
      let p := h.start i cwd
      let (flow, p) := (Script.runNamed fuel tool words (Script.exported p)).run.run p
      let h := { h with tree := p.world.tree }
      match flow with
      | .ok none => (h, .ok ⟨Int.ofNat p.status, Octets.toBytes (p.world.content 0),
          Octets.toBytes (p.world.content 1)⟩)
      | .ok (some _) | .error (.killed _) => (h, .error (.terminated i.program))
      | .error .late => (h, .error (.timedOut i.program (i.timeout.getD 0)))
      | .error _ => (h, .ok ⟨Int.ofNat p.status, Octets.toBytes (p.world.content 0),
          Octets.toBytes (p.world.content 1)⟩)

/-- How an invocation ends. -/
def outcome (h : Host) (i : Invocation) : Host × Outcome :=
  let (h, result) := h.run i
  (h, result.map Output.decode)

end Host

end FishCheck
