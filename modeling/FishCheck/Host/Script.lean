import FishCheck.Host.Script.Commands
import FishCheck.Shell.Arithmetic

/-!
# Running scripts

A script runs command by command. Each command expands its words, opens its
redirections and then is a function of the script, a command of the shell itself or a
program. Runs are bounded by fuel; a script that uses it up counts as one that never
ends.
-/

namespace FishCheck

namespace Host

open Shell

namespace Script

/-! ## Programs and their names -/

/-- The variables that programs see. -/
def exported (p : Process) : List (Text × Text) :=
  p.bindings.pairs.filterMap fun v => if v.2.2 then some (v.1, v.2.1) else none

/-- What a tool sees in a process. -/
def surroundings (p : Process) (bindings : List (Text × Text)) : Surroundings where
  stdin := p.stdin
  open? t := (p.world.tree.read p.cwd (wordPath t)).map Octets.ofBytes
  cwd := Octets.ofBytes (Tree.pathOf p.cwd).bytes
  bindings := bindings

/-- Runs a tool in a process. -/
def runTool (name : Text) (words : List Text) (bindings : List (Text × Text)) : Run Unit := do
  let p ← get
  match Tools.run name (surroundings p bindings) words with
  | none => setStatus 127
  | some done =>
    modify fun p => { p with stdin := done.rest }
    emit 1 done.out
    emit 2 done.err
    for (path, t) in done.writes do
      modify fun p =>
        match p.world.tree.write p.cwd (wordPath path) (Octets.toBytes t) with
        | .ok tree => { p with world := { p.world with tree } }
        | .error _ => p
    pass done.duration
    setStatus done.status

/-- The commands of the shell that keep the variables set for them. -/
def keeping : List Text :=
  [":", ".", "break", "continue", "eval", "exec", "exit", "export", "readonly", "return", "set",
    "shift", "times", "trap", "unset"]

/-- Puts a variable back to what it was. -/
def restored (vs : Table Text (Text × Bool)) (name : Text) (before : Option (Text × Bool)) :
    Table Text (Text × Bool) :=
  match before with
  | some v => vs.set name v
  | none => vs.erase name

/-- The names under which the shell itself can be run. -/
def shellNames : List Text := ["sh", "dash", "bash"]

/-- Splits off the options that the shell is started with: their letters, and the words
after them. -/
def startOptions : List Text → Text × List Text
  | ['-', '-'] :: rest | ['-'] :: rest => ([], rest)
  | ('-' :: c :: cs) :: rest =>
    let (more, rest) := startOptions rest
    (c :: cs ++ more, rest)
  | words => ([], words)

/-- The word that the shell says when a program is killed. -/
def obituary (signal : Nat) : Text :=
  match signal with
  | 9 => "Killed\n"
  | 15 => "Terminated\n"
  | 1 => "Hangup\n"
  | 3 => "Quit\n"
  | 6 => "Aborted\n"
  | 10 => "User defined signal 1\n"
  | 11 => "Segmentation fault\n"
  | 12 => "User defined signal 2\n"
  | 14 => "Alarm clock\n"
  | _ => []

/-- What a command name stands for: in short, and in words. -/
def meaning? (p : Process) (name : Text) : Option (Text × Text) :=
  if Reader.reserved.contains name then some (name, " is a shell keyword")
  else if (p.functions.get? name).isSome then some (name, " is a shell function")
  else if ownCommands.contains name then some (name, " is a shell builtin")
  else
    match locate p.world.tree p.cwd ((valueOf? p "PATH").getD defaultPath) name with
    | .ok path =>
      let spelled := Octets.ofBytes path.bytes
      some (spelled, " is " ++ spelled)
    | .error _ => none

/-- Says what command names stand for. -/
def describe (inWords : Bool) (names : List Text) : Run Unit := do
  setStatus 0
  for name in names do
    match meaning? (← get) name with
    | some (short, words) => emit 1 (if inWords then name ++ words ++ "\n" else short ++ "\n")
    | none =>
      if inWords then emit 1 (name ++ ": not found\n")
      setStatus 127

/-- Complains about the problem that a script ends with. -/
def checkText (script : Text) : Run Unit := do
  match (Shell.lines script).2 with
  | none => setStatus 0
  | some (line, problem) =>
    modify fun p => { p with line }
    fail problem.message 2

/-! ## The interpreter -/

mutual

/-- Expands the parts of a word. -/
def expand : Nat → Word → Run (List Bit)
  | 0, _ => throw .late
  | _, [] => pure []
  | fuel + 1, part :: rest => do
    let bits ← match part with
      | .literal [] true => pure [Bit.mark]
      | .literal t quoted => pure (Bit.ofText t quoted false)
      | .command body quoted =>
        let t ← substitute fuel body
        pure (Bit.ofText t quoted (!quoted))
      | .arithmetic e quoted =>
        let t := Bit.text (← expand fuel e)
        let p ← get
        let valueOf (name : Text) : Except Arithmetic.Trouble Int :=
          let held := (valueOf? p name).getD []
          match Tools.integer? held with
          | some n => .ok n
          | none => if held.isEmpty then .ok 0 else .error (.illegal held)
        match Arithmetic.evaluate valueOf t with
        | .ok n => pure (Bit.ofText (Text.signedDecimal n) quoted (!quoted))
        | .error e => abort (e.message t)
      | .parameter name modifier word quoted =>
        let p ← get
        let value? := valueOf? p name
        let given (orEmpty : Bool) : Bool :=
          match value? with
          | none => false
          | some t => !(orEmpty && t.isEmpty)
        let plain := modifier = .none ∨ modifier = .length
        if p.demanding ∧ plain ∧ value? = none ∧ name ≠ ['@'] ∧ name ≠ ['*'] then
          abort (name ++ ": parameter not set")
        match modifier with
        | .none => pure (parameterBits p name quoted)
        | .length => pure (Bit.ofText (Text.decimal (value?.getD []).length) quoted false)
        | .fallback orEmpty =>
          if given orEmpty then pure (parameterBits p name quoted) else expand fuel word
        | .assign orEmpty =>
          if given orEmpty then pure (parameterBits p name quoted)
          else
            let bits ← expand fuel word
            assign name (Bit.text bits)
            pure bits
        | .instead orEmpty => if given orEmpty then expand fuel word else pure []
        | .demand orEmpty =>
          if given orEmpty then pure (parameterBits p name quoted)
          else
            let why := Bit.text (← expand fuel word)
            let why : Text :=
              if !why.isEmpty then why
              else if orEmpty then "parameter not set or null"
              else "parameter not set"
            abort (name ++ ": " ++ why)
        | .cutFront longest =>
          let pattern := Pattern.ofCharacters (Bit.characters (← expand fuel word))
          pure (Bit.ofText (cutFront pattern longest (value?.getD [])) quoted (!quoted))
        | .cutBack longest =>
          let pattern := Pattern.ofCharacters (Bit.characters (← expand fuel word))
          pure (Bit.ofText (cutBack pattern longest (value?.getD [])) quoted (!quoted))
    pure (bits ++ (← expand fuel rest))

/-- Expands a word whose leading tilde stands for the home directory. -/
def expandWord : Nat → Word → Run (List Bit)
  | 0, _ => throw .late
  | fuel + 1, w => do
    match w with
    | .literal ('~' :: t) false :: rest =>
      let home? := valueOf? (← get) "HOME"
      match home? with
      | some home =>
        if t.isEmpty && rest.isEmpty || t.head? == some '/' then
          pure (Bit.ofText home true false ++ Bit.ofText t false false ++ (← expand fuel rest))
        else expand fuel w
      | none => expand fuel w
    | _ => expand fuel w

/-- The output of commands, without the line feeds at its end. -/
def substitute : Nat → List Command → Run Text
  | 0, _ => throw .late
  | fuel + 1, body => do
    let t ← captured (isolated (finishing fuel (runAll fuel body)))
    modify fun p => { p with substituted := some p.status }
    pure (dropLineEnds (t.filter (· ≠ '\x00')))

/-- Expands words into fields. -/
def expandAll : Nat → List Word → Run (List Text)
  | 0, _ => throw .late
  | _, [] => pure []
  | fuel + 1, w :: ws => do
    let bits ← expandWord fuel w
    let fields := fieldsOf (← get) bits
    pure (fields ++ (← expandAll fuel ws))

/-- Opens redirections in order; the result says whether all could be opened. -/
def openAll : Nat → List Redirect → Run Bool
  | 0, _ => throw .late
  | _, [] => pure true
  | fuel + 1, .mk stream direction target :: rest => do
    let t := Bit.text (← expandWord fuel target)
    if ← openRedirect stream direction t then openAll fuel rest else pure false

/-- Runs something with redirections open. -/
def redirecting : Nat → List Redirect → Run Unit → Run Unit
  | 0, _, _ => throw .late
  | fuel + 1, redirects, x => do
    if redirects.isEmpty then x
    else
      let before ← get
      let readsElsewhere := redirects.any fun
        | .mk _ direction _ => direction = .input ∨ direction = .here
      let restore : Run Unit := modify fun p => { p with
        sinks := before.sinks
        stdin := if readsElsewhere then before.stdin else p.stdin }
      if ← openAll fuel redirects then
        tryCatch x fun flow => do
          restore
          throw flow
        restore
      else
        restore
        setStatus 2

/-- Sets variables in order. -/
def assignAll : Nat → List (Text × Word) → Run Unit
  | 0, _ => throw .late
  | _, [] => pure ()
  | fuel + 1, (name, w) :: rest => do
    assign name (Bit.text (← expandWord fuel w))
    assignAll fuel rest

/-- Runs commands in order. -/
def runAll : Nat → List Command → Run Unit
  | 0, _ => throw .late
  | _, [] => pure ()
  | fuel + 1, c :: cs => do
    runOne fuel c
    runAll fuel cs

/-- Runs one command. -/
def runOne : Nat → Command → Run Unit
  | 0, _ => throw .late
  | fuel + 1, c => do
    match c with
    | .simple line assignments words redirects =>
      runSimple fuel line assignments words redirects
      endOnFailure
    | .pipe commands => do
      runPipe fuel commands true
      endOnFailure
    | .background c => besides (finishing fuel (runOne fuel c))
    | .negate c =>
      guarded (runOne fuel c)
      modify fun p => { p with status := if p.status = 0 then 1 else 0 }
    | .both a b =>
      guarded (runOne fuel a)
      if (← get).status = 0 then runOne fuel b
    | .either a b =>
      guarded (runOne fuel a)
      if (← get).status ≠ 0 then runOne fuel b
    | .group body => runAll fuel body
    | .subshell body =>
      isolated (finishing fuel (runAll fuel body))
      endOnFailure
    | .choose branches otherwise => runChoice fuel branches otherwise
    | .loop negated condition body => runLoop fuel negated condition body 0
    | .each name words body =>
      let values ← match words with
        | some ws => expandAll fuel ws
        | none => do pure (← get).parameters
      setStatus 0
      runEach fuel name values body
    | .select subject branches =>
      let t := Bit.text (← expandWord fuel subject)
      setStatus 0
      runSelection fuel t branches
    | .define name body =>
      modify fun p => { p with functions := p.functions.set name body, status := 0 }
    | .redirected c redirects => redirecting fuel redirects (runOne fuel c)

/-- Runs the first branch whose condition succeeds. -/
def runChoice : Nat → List (List Command × List Command) → List Command → Run Unit
  | 0, _, _ => throw .late
  | fuel + 1, [], otherwise => do
    setStatus 0
    runAll fuel otherwise
  | fuel + 1, (condition, body) :: rest, otherwise => do
    guarded (runAll fuel condition)
    if (← get).status = 0 then runAll fuel body else runChoice fuel rest otherwise

/-- Runs the body of a loop once; the result says whether the loop goes on. -/
def runRound : Nat → List Command → Run Bool
  | 0, _ => throw .late
  | fuel + 1, body => do
    let outer := (← get).loops
    let back : Run Unit := modify fun p => { p with loops := outer }
    modify fun p => { p with loops := outer + 1 }
    let goes ← tryCatch (do runAll fuel body; pure true) fun flow => do
      back
      match flow with
      | .leave n => if 1 < n then throw (.leave (n - 1)) else pure false
      | .again n => if 1 < n then throw (.again (n - 1)) else pure true
      | flow => throw flow
    back
    pure goes

/-- Runs a loop with a condition; the status is that of the last round. -/
def runLoop : Nat → Bool → List Command → List Command → Nat → Run Unit
  | 0, _, _, _, _ => throw .late
  | fuel + 1, negated, condition, body, status => do
    guarded (runAll fuel condition)
    if ((← get).status == 0) != negated then
      if ← runRound fuel body then runLoop fuel negated condition body (← get).status
    else setStatus status

/-- Runs a loop over values. -/
def runEach : Nat → Text → List Text → List Command → Run Unit
  | 0, _, _, _ => throw .late
  | _, _, [], _ => pure ()
  | fuel + 1, name, v :: vs, body => do
    assign name v
    if ← runRound fuel body then runEach fuel name vs body

/-- Runs the first branch with a pattern that matches. -/
def runSelection : Nat → Text → List (List Word × List Command) → Run Unit
  | 0, _, _ => throw .late
  | _, _, [] => pure ()
  | fuel + 1, t, (patterns, body) :: rest => do
    if ← anyMatch fuel t patterns then runAll fuel body else runSelection fuel t rest

/-- Whether one of the patterns matches. -/
def anyMatch : Nat → Text → List Word → Run Bool
  | 0, _, _ => throw .late
  | _, _, [] => pure false
  | fuel + 1, t, w :: ws => do
    let pattern := Pattern.ofCharacters (Bit.characters (← expandWord fuel w))
    if Pattern.isMatch pattern t then pure true else anyMatch fuel t ws

/-- Runs a pipeline: what one command writes is what the next one reads. -/
def runPipe : Nat → List Command → Bool → Run Unit
  | 0, _, _ => throw .late
  | _, [], _ => pure ()
  | fuel + 1, [c], _ => do
    let before := (← get).stdin
    isolated (finishing fuel (runOne fuel c))
    modify fun p => { p with stdin := before }
  | fuel + 1, c :: cs, first => do
    let before := (← get).stdin
    let t ← captured (isolated (finishing fuel (runOne fuel c)))
    let left := (← get).stdin
    let rest := if first then left else before
    modify fun p => { p with stdin := t }
    runPipe fuel cs false
    modify fun p => { p with stdin := rest }

/-- Runs a simple command. -/
def runSimple : Nat → Nat → List (Text × Word) → List Word → List Redirect → Run Unit
  | 0, _, _, _, _ => throw .late
  | fuel + 1, line, assignments, words, redirects => do
    modify fun p => { p with line, substituted := none }
    let fields ← expandAll fuel words
    if (← get).traced then
      let settings ← assignments.mapM fun (name, w) => do
        pure (name ++ '=' :: Bit.text (← expandWord fuel w))
      unless settings.isEmpty && fields.isEmpty do
        emit 2 ("+ " ++ Tools.spaced (settings ++ fields) ++ "\n")
    match fields with
    | [] =>
      redirecting fuel redirects (assignAll fuel assignments)
      if redirects.isEmpty then
        modify fun p => { p with status := p.substituted.getD 0 }
    | name :: args =>
      if name = "exec".toList && args.isEmpty then
        if ← openAll fuel redirects then setStatus 0 else throw .exit
      else if assignments.isEmpty then redirecting fuel redirects (runCommand fuel name args)
      else
        let before := (← get).bindings
        assignAll fuel assignments
        if keeping.contains name then redirecting fuel redirects (runCommand fuel name args)
        else
          modify fun p => { p with
            bindings := assignments.foldl (fun vs a => match vs.get? a.1 with
              | some (v, _) => vs.set a.1 (v, true)
              | none => vs) p.bindings }
          redirecting fuel redirects (runCommand fuel name args)
          let back (vs : Table Text (Text × Bool)) (a : Text × Word) :=
            restored vs a.1 (before.get? a.1)
          modify fun p => { p with bindings := assignments.foldl back p.bindings }

/-- Runs a command by its name and arguments. -/
def runCommand : Nat → Text → List Text → Run Unit
  | 0, _, _ => throw .late
  | fuel + 1, name, args => do
    let p ← get
    match p.functions.get? name with
    | some body =>
      modify fun p => { p with parameters := args, outside := some [], loops := 0 }
      let leave : Run Unit := modify fun q => { q with
        parameters := p.parameters
        loops := p.loops
        outside := p.outside
        bindings := (q.outside.getD []).foldl (fun vs v => restored vs v.1 v.2) q.bindings }
      tryCatch (runOne fuel body) fun
        | .giveBack => pure ()
        | flow => do
          leave
          throw flow
      leave
    | none =>
      match String.ofList name with
      | "eval" => runText fuel "eval: " (Tools.spaced args)
      | "." =>
        let path := args.headD []
        match p.world.tree.read p.cwd (wordPath path) with
        | .ok content => runText fuel [] (Octets.ofBytes content)
        | .error _ =>
          if path.contains '/' then abort (".: cannot open " ++ path ++ ": No such file")
          else abort (".: " ++ path ++ ": not found")
      | "exec" =>
        match args with
        | n :: more =>
          let status ← runProgram fuel "exec: " n more
          match status with
          | some signal => throw (.killed signal)
          | none => throw .exit
        | [] => setStatus 0
      | "command" =>
        match args with
        | ['-', 'v'] :: n :: _ => describe false [n]
        | ['-', 'V'] :: n :: _ => describe true [n]
        | n :: more =>
          if ← ownCommand n more then pure () else reportProgram fuel n more
        | [] => setStatus 0
      | "type" => describe true args
      | _ => if ← ownCommand name args then pure () else reportProgram fuel name args

/-- Runs a program and says so if it is killed. -/
def reportProgram : Nat → Text → List Text → Run Unit
  | 0, _, _ => throw .late
  | fuel + 1, name, args => do
    match ← runProgram fuel [] name args with
    | some signal =>
      emit 2 (obituary signal)
      setStatus (128 + signal)
    | none => pure ()

/-- Runs a program; the result is the signal that killed it, if one did. Complaints about
the program start with a label. -/
def runProgram : Nat → Text → Text → List Text → Run (Option Nat)
  | 0, _, _, _ => throw .late
  | fuel + 1, label, name, args => do
    let p ← get
    let denied (f : Fault) : Run (Option Nat) := do
      match f with
      | .missing | .notDirectory =>
        complain (label ++ name ++ ": not found")
        setStatus 127
      | _ =>
        complain (label ++ name ++ ": " ++ Tools.reason f)
        setStatus 126
      pure none
    match locate p.world.tree p.cwd ((valueOf? p "PATH").getD defaultPath) name with
    | .error f => denied f
    | .ok path =>
      match launchable p.world.tree p.cwd 8 path (name :: args) with
      | .ok (tool, words) => runNamed fuel tool words (exported p)
      | .error .badFormat =>
        runNamed fuel "sh" ("sh".toList :: Octets.ofBytes path.bytes :: args) (exported p)
      | .error f => denied f

/-- Runs a tool or the shell; the result is the signal that killed it, if one did. -/
def runNamed : Nat → Text → List Text → List (Text × Text) → Run (Option Nat)
  | 0, _, _, _ => throw .late
  | fuel + 1, tool, words, bindings => do
    let p ← get
    if shellNames.contains tool then
      let child : Process := {
        world := { p.world with nextProcess := p.world.nextProcess + 1 }
        cwd := p.cwd
        bindings := ⟨bindings.map fun v => (v.1, v.2, true)⟩
        stdin := p.stdin
        sinks := p.sinks
        number := p.world.nextProcess
        name := words.headD "sh"
        tested := false }
      let (result, after) := (runShell fuel (words.drop 1)).run.run child
      set { p with world := after.world, stdin := after.stdin, status := after.status }
      match result with
      | .error (Flow.killed n) => pure (some n)
      | .error Flow.late => throw .late
      | _ => pure none
    else if tool = "env".toList then
      let settings := (words.drop 1).takeWhile fun w => w.contains '='
      let rest := words.drop (settings.length + 1)
      let bindings := (settings.foldl (fun (vs : Table Text Text) w =>
        vs.set (setting w).1 ((setting w).2.getD [])) ⟨bindings⟩).pairs
      match rest with
      | [] =>
        runTool "printenv" [] bindings
        pure none
      | n :: args =>
        isolated do
          modify fun p => { p with bindings := ⟨bindings.map fun v => (v.1, v.2, true)⟩ }
          let _ ← runProgram fuel [] n args
        pure none
    else
      runTool tool (words.drop 1) bindings
      pure none

/-- Runs the shell with its arguments. -/
def runShell : Nat → List Text → Run Unit
  | 0, _ => throw .late
  | fuel + 1, words => do
    let (letters, rest) := startOptions words
    modify (switch true letters)
    let start (script : Text) : Run Unit :=
      if letters.contains 'n' then checkText script else finishing fuel (runText fuel [] script)
    let early (why : Text) : Run Unit := do
      modify fun p => { p with line := 0 }
      fail why 2
    let read : Run Unit := do
      let p ← get
      modify fun p => { p with stdin := [] }
      start p.stdin
    let known := "co".toList ++ longOptions.map (·.2)
    match letters.find? fun c => !known.contains c with
    | some c => early ("Illegal option -" ++ [c])
    | none =>
      if letters.contains 'c' then
        match rest with
        | [] => early "-c requires an argument"
        | script :: rest =>
          modify fun p => { p with name := rest.headD p.name, parameters := rest.drop 1 }
          start script
      else if letters.contains 's' then
        modify fun p => { p with parameters := rest }
        read
      else
        match rest with
        | file :: args =>
          let p ← get
          match p.world.tree.read p.cwd (wordPath file) with
          | .ok content =>
            modify fun p => { p with name := file, parameters := args }
            start (Octets.ofBytes content)
          | .error .isDirectory => setStatus 0
          | .error _ => early ("cannot open " ++ file ++ ": No such file")
        | [] => read

/-- Runs something that is a script of its own, up to what it left to run at its end. -/
def finishing : Nat → Run Unit → Run Unit
  | 0, _ => throw .late
  | fuel + 1, x => do
    modify fun p => { p with onExit := [] }
    tryCatch x fun
      | .killed n => throw (.killed n)
      | .late => throw .late
      | _ => pure ()
    modify fun p => { p with status := p.status % 256 }
    let p ← get
    unless p.onExit.isEmpty do
      set { p with onExit := [] }
      tryCatch (do runText fuel [] p.onExit; setStatus p.status) fun
        | .killed n => throw (.killed n)
        | .late => throw .late
        | _ => pure ()

/-- Runs the lines of a script up to the problem that ends it, if there is one; a label
comes before what the problem is. -/
def runText : Nat → Text → Text → Run Unit
  | 0, _, _ => throw .late
  | fuel + 1, label, script => do
    let (lines, problem?) := Shell.lines script
    if lines.flatten.isEmpty then setStatus 0
    runAll fuel lines.flatten
    match problem? with
    | none => pure ()
    | some (line, problem) =>
      modify fun p => { p with line }
      abort (label ++ problem.message)

end

end Script

end Host

end FishCheck
