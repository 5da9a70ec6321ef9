import FishCheck.Host.Tools
import FishCheck.Shell.Pattern
import FishCheck.Shell.Reader

/-!
# The state of a run

A run goes on in a world of files, time and channels. Each process in it has a working
directory, variables, an input and sinks for its outputs; a script adds its parameters
and functions. This module holds that state, and finds the file that a command name
stands for.
-/

namespace FishCheck

namespace Host

/-- What all processes of a run share. -/
structure World where
  tree : Tree
  /-- The milliseconds that have passed. -/
  clock : Nat := 0
  /-- The time at which the run is given up. -/
  deadline : Option Nat := none
  /-- The time at which all that runs in the background has ended. -/
  busyUntil : Nat := 0
  /-- What was written into each channel. -/
  channels : Table Nat Text := {}
  /-- The number of the next channel. -/
  nextChannel : Nat := 0
  /-- The number of the next process. -/
  nextProcess : Nat := 4001

/-- Where output goes. -/
inductive Sink
  | channel (n : Nat)
  | file (l : Location)
  | void
deriving DecidableEq, Repr

/-- How a process or script goes on. -/
inductive Flow
  /-- It ends with the status at hand. -/
  | exit
  | killed (signal : Nat)
  /-- The deadline has passed. -/
  | late
  /-- A loop ends. -/
  | leave (depth : Nat)
  /-- A loop goes into its next round. -/
  | again (depth : Nat)
  /-- A function ends. -/
  | giveBack
deriving DecidableEq, Repr

/-- The state of a process that runs a script. -/
structure Process where
  world : World
  cwd : Location
  /-- Variables with their values and whether programs see them. -/
  bindings : Table Text (Text × Bool) := {}
  stdin : Text := []
  sinks : Table Nat Sink := {}
  number : Nat := 0
  name : Text := "sh"
  parameters : List Text := []
  functions : Table Text Shell.Command := {}
  status : Nat := 0
  /-- Whether a failure ends the script. -/
  strict : Bool := false
  /-- Whether an unset variable ends the script. -/
  demanding : Bool := false
  /-- Whether commands are shown before they run. -/
  traced : Bool := false
  /-- The loops that are under way. -/
  loops : Nat := 0
  /-- What runs when the script ends. -/
  onExit : Text := []
  /-- The values that the variables of the function at work have outside of it; nothing
  outside of functions. -/
  outside : Option (List (Text × Option (Text × Bool))) := none
  /-- Whether failures are looked at and end nothing. -/
  tested : Bool := false
  /-- The line of the command that runs. -/
  line : Nat := 1
  /-- The status of the last command whose output became part of a word. -/
  substituted : Option Nat := none

/-- A computation of a process, which may leave the usual course. -/
abbrev Run := ExceptT Flow (StateM Process)

namespace World

/-- Opens a new channel. -/
def newChannel (w : World) : Nat × World :=
  (w.nextChannel,
    { w with nextChannel := w.nextChannel + 1, channels := w.channels.set w.nextChannel [] })

/-- What was written into a channel. -/
def content (w : World) (n : Nat) : Text := (w.channels.get? n).getD []

/-- Writes to a sink. -/
def put (w : World) (t : Text) : Sink → World
  | .void => w
  | .channel n => { w with channels := w.channels.set n (w.content n ++ t) }
  | .file l =>
    match w.tree.node? l with
    | some (.file old executable) =>
      { w with tree := w.tree.put l (.file (old ++ Octets.toBytes t) executable) }
    | _ => w

/-- Lets time pass; the deadline may come before that. -/
def pass (w : World) (ms : Nat) : World × Bool :=
  let w := { w with clock := w.clock + ms }
  (w, w.deadline.any fun d => d < w.clock)

end World

/-! ## Finding programs -/

/-- The path that a word spells. -/
def wordPath (t : Text) : Path := ⟨Octets.toBytes t⟩

/-- The file that can run at a path. -/
def runnable (tree : Tree) (cwd : Location) (p : Path) : Except Fault (Location × Node) :=
  match tree.find cwd p with
  | .ok (l, .tool name) => .ok (l, .tool name)
  | .ok (l, .file content true) => .ok (l, .file content true)
  | .ok _ => .error .accessDenied
  | .error f => .error f

/-- Looks for a program in the directories of a search path. -/
def searchPath (tree : Tree) (cwd : Location) (name : Text) (denied : Bool) :
    List Text → Except Fault Path
  | [] => .error (if denied then .accessDenied else .missing)
  | dir :: dirs =>
    let p := wordPath (if dir.isEmpty then name else dir ++ '/' :: name)
    match runnable tree cwd p with
    | .ok _ => .ok p
    | .error .accessDenied => searchPath tree cwd name true dirs
    | .error _ => searchPath tree cwd name denied dirs

/-- The directories that are searched when the variables name none. -/
def defaultPath : Text := "/usr/local/bin:/usr/bin:/bin"

/-- The path of the file that a command name stands for: a name with a slash is a path,
any other is looked up in the search path. -/
def locate (tree : Tree) (cwd : Location) (search : Text) (name : Text) : Except Fault Path :=
  if name.contains '/' then (runnable tree cwd (wordPath name)).map fun _ => wordPath name
  else if Tree.maxName < name.length then .error .nameTooLong
  else searchPath tree cwd name false (Tools.fieldsOf ':' search)

/-- The interpreter that a script names on its first line, with its argument. -/
def interpreter? (content : Text) : Option (Text × Option Text) :=
  match content with
  | '#' :: '!' :: rest =>
    let blank (c : Char) : Bool := c == ' ' || c == '\t'
    let line := (rest.takeWhile (· ≠ '\n')).dropWhile blank
    let line := (line.reverse.dropWhile blank).reverse
    let name := line.takeWhile (!blank ·)
    let arg := (line.drop name.length).dropWhile blank
    if name.isEmpty then none else some (name, if arg.isEmpty then none else some arg)
  | _ => none

/-- The tool that runs for a command, with all its words: a script runs as an argument of
its interpreter, which may be a script too. -/
def launchable (tree : Tree) (cwd : Location) : Nat → Path → List Text →
    Except Fault (Text × List Text)
  | 0, _, _ => .error .linkLoop
  | fuel + 1, p, words =>
    match runnable tree cwd p with
    | .error f => .error f
    | .ok (_, .tool name) => .ok (name, words)
    | .ok (_, .file content _) =>
      match interpreter? (Octets.ofBytes content) with
      | none => .error .badFormat
      | some (name, arg) =>
        launchable tree cwd fuel (wordPath name)
          (name :: arg.toList ++ Octets.ofBytes p.bytes :: words.drop 1)
    | .ok _ => .error .accessDenied

end Host

end FishCheck
