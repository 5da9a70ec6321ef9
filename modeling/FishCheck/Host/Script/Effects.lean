import FishCheck.Host.Machine

/-!
# What a running script does

The elementary effects of a script on its process: writing, complaining, setting
variables, letting time pass, and running a part of the script with its effects kept
apart, with other sinks or with its output caught. Redirections open files as sinks.
-/

namespace FishCheck

namespace Host

open Shell

namespace Script

/-! ## Output, status and scope -/

/-- Writes to a stream. -/
def emitTo (p : Process) (stream : Nat) (t : Text) : Process :=
  match p.sinks.get? stream with
  | some s => { p with world := p.world.put t s }
  | none => p

/-- Writes to a stream. -/
def emit (stream : Nat) (t : Text) : Run Unit := modify fun p => emitTo p stream t

/-- Sets the status. -/
def setStatus (n : Nat) : Run Unit := modify fun p => { p with status := n }

/-- Complains with the name of the script and the line. -/
def complain (why : Text) : Run Unit := do
  let p ← get
  emit 2 (p.name ++ ": " ++ Text.decimal p.line ++ ": " ++ why ++ "\n")

/-- Ends a command with a complaint and a status. -/
def fail (why : Text) (status : Nat) : Run Unit := do
  complain why
  setStatus status

/-- Ends the script with a complaint. -/
def abort (why : Text) : Run α := do
  fail why 2
  throw .exit

/-- Sets a variable; it stays visible to programs if it was. -/
def assign (name value : Text) : Run Unit := modify fun p =>
  let exported := ((p.bindings.get? name).map (·.2)).getD false
  { p with bindings := p.bindings.set name (value, exported) }

/-- Lets time pass. -/
def pass (ms : Nat) : Run Unit := do
  let p ← get
  let (world, isLate) := p.world.pass ms
  set { p with world }
  if isLate then throw .late

/-- Runs something whose effects on the script itself are undone; what it does to the
world, what it reads and its status stay. -/
def isolated (x : Run Unit) : Run Unit := do
  let before ← get
  let ending ← tryCatch (do x; pure none) fun
    | .killed n => pure (some (Flow.killed n))
    | .late => pure (some .late)
    | _ => pure none
  let after ← get
  set { before with world := after.world, stdin := after.stdin, status := after.status }
  match ending with
  | some flow => throw flow
  | none => pure ()

/-- Runs something in the background: it takes its time without the script, and reads
nothing. -/
def besides (x : Run Unit) : Run Unit := do
  let before ← get
  set { before with stdin := [], world := { before.world with deadline := none } }
  tryCatch (isolated x) fun
    | .killed n => throw (.killed n)
    | _ => pure ()
  let world := (← get).world
  modify fun p => { p with
    stdin := before.stdin
    status := 0
    world := { world with
      clock := before.world.clock
      deadline := before.world.deadline
      busyUntil := max world.busyUntil world.clock } }

/-- Waits for what runs in the background. -/
def await : Run Unit := do
  let w := (← get).world
  pass (w.busyUntil - w.clock)
  setStatus 0

/-- Runs something whose failures end nothing. -/
def guarded (x : Run Unit) : Run Unit := do
  let before := (← get).tested
  modify fun p => { p with tested := true }
  tryCatch x fun flow => do
    modify fun p => { p with tested := before }
    throw flow
  modify fun p => { p with tested := before }

/-- Ends the script if the last command failed and failures end it. -/
def endOnFailure : Run Unit := do
  let p ← get
  if p.strict && !p.tested && p.status != 0 then throw .exit

/-- Runs something with other sinks. -/
def withSinks (change : Table Nat Sink → Table Nat Sink) (x : Run Unit) : Run Unit := do
  let before := (← get).sinks
  modify fun p => { p with sinks := change p.sinks }
  tryCatch x fun flow => do
    modify fun p => { p with sinks := before }
    throw flow
  modify fun p => { p with sinks := before }

/-- Runs something into a new channel and gives what was written. -/
def captured (x : Run Unit) : Run Text := do
  let p ← get
  let (n, world) := p.world.newChannel
  set { p with world }
  withSinks (fun sinks => sinks.set 1 (.channel n)) x
  pure ((← get).world.content n)

/-- Removes the line feeds at the end of a text. -/
def dropLineEnds (t : Text) : Text := (t.reverse.dropWhile (· == '\n')).reverse

/-! ## Redirections -/

/-- Opens a redirection whose target is known. -/
def openRedirect (stream : Nat) (direction : Direction) (target : Text) : Run Bool := do
  let p ← get
  let path := wordPath target
  let opened (before : Bytes) : Run Bool := do
    let standard : Option Sink :=
      if target = "/dev/stdout".toList then p.sinks.get? 1
      else if target = "/dev/stderr".toList then p.sinks.get? 2
      else none
    if let some sink := standard then
      set { p with sinks := p.sinks.set stream sink }
      return true
    match p.world.tree.write p.cwd path before with
    | .error f =>
      let why := if f = .missing then "Directory nonexistent".toList else Tools.reason f
      complain ("cannot create " ++ target ++ ": " ++ why)
      pure false
    | .ok tree =>
      let sink := match tree.find p.cwd path with
        | .ok (l, .file _ _) => Sink.file l
        | _ => .void
      set { p with world := { p.world with tree }, sinks := p.sinks.set stream sink }
      pure true
  match direction with
  | .here =>
    set { p with stdin := target }
    pure true
  | .input =>
    if target = "/dev/stdin".toList then pure true
    else match p.world.tree.read p.cwd path with
    | .ok content =>
      set { p with stdin := Octets.ofBytes content }
      pure true
    | .error f =>
      let why := if f = .missing then "No such file".toList else Tools.reason f
      complain ("cannot open " ++ target ++ ": " ++ why)
      pure false
  | .output => opened []
  | .append => opened ((p.world.tree.read p.cwd path).toOption.getD [])
  | .copy =>
    match Text.natural? target with
    | some n =>
      match p.sinks.get? n with
      | some sink =>
        set { p with sinks := p.sinks.set stream sink }
        pure true
      | none =>
        if n = 0 ∨ stream = 0 then pure true
        else
          complain (Text.decimal n ++ ": Bad file descriptor")
          pure false
    | none =>
      if target = ['-'] then
        set { p with sinks := p.sinks.erase stream }
        pure true
      else
        complain "Bad fd number"
        pure false

end Script

end Host

end FishCheck
