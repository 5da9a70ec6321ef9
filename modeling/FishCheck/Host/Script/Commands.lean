import FishCheck.Host.Condition
import FishCheck.Host.Expansion
import FishCheck.Host.Script.Effects

/-!
# The commands that the shell brings along

Commands that change the script itself: its variables, parameters, options and working
directory, its loops and its end. None of them runs another command; those that do are
part of the interpreter.
-/

namespace FishCheck

namespace Host

open Shell

namespace Script

/-- The numbers of signals by name. -/
def signals : List (String × Nat) :=
  [("HUP", 1), ("INT", 2), ("QUIT", 3), ("ABRT", 6), ("KILL", 9), ("USR1", 10), ("SEGV", 11),
    ("USR2", 12), ("PIPE", 13), ("ALRM", 14), ("TERM", 15)]

/-- The number of a signal. -/
def signal? (t : Text) : Option Nat :=
  match Text.natural? t with
  | some n => some n
  | none =>
    let t := if "SIG".toList.isPrefixOf t then t.drop 3 else t
    (signals.find? fun s => s.1.toList = t).map (·.2)

/-- Signals that end nothing. -/
def harmless (n : Nat) : Bool := n == 0 || n == 17 || n == 18 || n == 23 || n == 28

/-- Sends signals to processes; a script can only reach itself. -/
def kill (words : List Text) : Run Unit := do
  let (signal, targets) := match words with
    | ['-', 's'] :: s :: rest => (signal? s, rest)
    | ['-', '-'] :: rest => (some 15, rest)
    | ('-' :: s) :: rest => (signal? s, rest)
    | rest => (some 15, rest)
  match signal with
  | none => fail ("kill: Illegal option -" ++ (words.headD []).extract 1 2) 2
  | some n =>
    let p ← get
    if targets.isEmpty then
      fail ("kill: Usage: kill [-s sigspec | -signum | -sigspec] [pid | job]... or\n" ++
        "kill -l [exitstatus]") 2
    else match targets.find? fun t => (Text.natural? t).isNone with
      | some t => fail ("kill: Illegal number: " ++ t) 2
      | none =>
        if targets.contains (Text.decimal p.number) then
          if harmless n then setStatus 0 else throw (.killed n)
        else
          for _ in targets do complain "kill: No such process\n"
          setStatus 1

/-- Takes a line off standard input; nothing at its end. -/
def takeLine (raw : Bool) : Nat → Text → Text × Text × Bool
  | 0, t => ([], t, false)
  | fuel + 1, t =>
    match t with
    | [] => ([], [], false)
    | '\n' :: rest => ([], rest, true)
    | '\\' :: '\n' :: rest =>
      if raw then ('\\' :: [], rest, true) else takeLine raw fuel rest
    | '\\' :: c :: rest =>
      let (line, rest, ended) := takeLine raw fuel rest
      (if raw then '\\' :: c :: line else c :: line, rest, ended)
    | c :: rest =>
      let (line, rest, ended) := takeLine raw fuel rest
      (c :: line, rest, ended)

/-- Gives the fields of a line to variables; the last one takes what is left. -/
def shareOut (blank : Char → Bool) : List Text → Text → List (Text × Text)
  | [], _ => []
  | [name], t => [(name, ((t.dropWhile blank).reverse.dropWhile blank).reverse)]
  | name :: names, t =>
    let t := t.dropWhile blank
    (name, t.takeWhile (!blank ·)) :: shareOut blank names (t.dropWhile (!blank ·))

/-- Reads a line into variables. -/
def readLine (words : List Text) : Run Unit := do
  let (options, names) := Tools.optionsOf "p" words
  let p ← get
  if names.isEmpty then
    fail "read: arg count" 2
    return
  let (line, rest, ended) := takeLine (Tools.has options 'r') (p.stdin.length + 1) p.stdin
  modify fun p => { p with stdin := rest }
  let blank (c : Char) : Bool := (separators p).contains c
  for (name, value) in shareOut blank names line do assign name value
  setStatus (if ended then 0 else 1)

/-- Splits a setting of a variable. -/
def setting (w : Text) : Text × Option Text :=
  match w.dropWhile (· ≠ '=') with
  | _ :: value => (w.takeWhile (· ≠ '='), some value)
  | [] => (w, none)

/-- Makes variables visible to programs, setting them if values are given. -/
def exportAll (words : List Text) : Run Unit := do
  for w in words do
    let (name, value?) := setting w
    modify fun p =>
      let old := (p.bindings.get? name).map (·.1)
      match value? <|> old with
      | some value => { p with bindings := p.bindings.set name (value, true) }
      | none => p
  setStatus 0

/-- Changes the working directory. -/
def changeDirectory (words : List Text) : Run Unit := do
  let p ← get
  let target := words.head?.getD ((valueOf? p "HOME").getD [])
  match p.world.tree.find p.cwd (wordPath target) with
  | .ok (l, .directory) =>
    set { p with cwd := l }
    setStatus 0
  | _ => fail ("cd: can't cd to " ++ target) 2

/-- The long names of options of the shell, with their letters. -/
def longOptions : List (String × Char) :=
  [("errexit", 'e'), ("nounset", 'u'), ("xtrace", 'x'), ("noglob", 'f'), ("noexec", 'n'),
    ("verbose", 'v'), ("allexport", 'a'), ("noclobber", 'C'), ("monitor", 'm'), ("notify", 'b'),
    ("interactive", 'i'), ("stdin", 's'), ("ignoreeof", 'I'), ("vi", 'V'), ("emacs", 'E')]

/-- The letter of a long option. -/
def optionLetter? (name : Text) : Option Char :=
  (longOptions.find? fun o => o.1.toList = name).map (·.2)

/-- Turns the options with some letters on or off. -/
def switch (on : Bool) (letters : Text) (p : Process) : Process :=
  { p with
    strict := if letters.contains 'e' then on else p.strict
    demanding := if letters.contains 'u' then on else p.demanding
    traced := if letters.contains 'x' then on else p.traced }

/-- Sets options or parameters of the script. -/
def setOptions : List Text → Run Unit
  | [] => setStatus 0
  | ['-', '-'] :: rest => modify fun p => { p with parameters := rest, status := 0 }
  | ['-', 'o'] :: name :: rest | ['+', 'o'] :: name :: rest => do
    match optionLetter? name with
    | some c =>
      modify (switch true [c])
      setOptions rest
    | none => abort ("set: Illegal option -o " ++ name)
  | ('-' :: c :: cs) :: rest => do
    match (c :: cs).find? fun c => !(longOptions.map (·.2)).contains c && c != 'o' with
    | some c => abort ("set: Illegal option -" ++ [c])
    | none =>
      modify (switch true (c :: cs))
      setOptions rest
  | ('+' :: cs) :: rest => do
    modify (switch false cs)
    setOptions rest
  | rest => modify fun p => { p with parameters := rest, status := 0 }

/-- A number that a command of the shell is given. -/
def numberOf (command : String) (t : Text) : Run Nat :=
  match Text.natural? t with
  | some n =>
    if n < Nat.pow 2 31 then pure n else abort (command.toList ++ ": Illegal number: ".toList ++ t)
  | none => abort (command.toList ++ ": Illegal number: ".toList ++ t)

/-- The number that a command of the shell is given first, or one. -/
def depthOf (command : String) (words : List Text) : Run Nat :=
  match words with
  | w :: _ => numberOf command w
  | [] => pure 1

/-- Ends the script or a function with a status. -/
def endWith (command : String) (words : List Text) (flow : Flow) : Run Unit := do
  match words with
  | w :: _ => setStatus (← numberOf command w)
  | [] => pure ()
  throw flow

/-- Leaves loops, as many as there are; without a loop nothing happens. -/
def leaveLoops (depth : Nat) (flow : Nat → Flow) : Run Unit := do
  let p ← get
  setStatus 0
  if p.loops ≠ 0 then throw (flow (min depth p.loops))

/-- Drops parameters from the front. -/
def shift (words : List Text) : Run Unit := do
  let n ← depthOf "shift" words
  let p ← get
  if p.parameters.length < n then abort "shift: can't shift that many"
  else set { p with parameters := p.parameters.drop n, status := 0 }

/-- Gives variables of a function their values. -/
def setLocal (words : List Text) : Run Unit := do
  if (← get).outside.isNone then abort "local: not in a function"
  for w in words do
    let (name, value?) := setting w
    modify fun p => { p with
      outside := p.outside.map ((name, p.bindings.get? name) :: ·) }
    if let some value := value? then assign name value
  setStatus 0

/-- Keeps what runs when the script ends. -/
def trap (words : List Text) : Run Unit := do
  let isExit (w : Text) : Bool := w == ['0'] || w == "EXIT".toList
  let words := if words.head? = some "--".toList then words.drop 1 else words
  match words with
  | [w] => if isExit w then modify fun p => { p with onExit := [] }
  | action :: ends =>
    if ends.any isExit then
      modify fun p => { p with onExit := if action = ['-'] then [] else action }
  | [] => pure ()
  setStatus 0

/-- The commands that the shell brings along. -/
def ownCommands : List Text :=
  [":", "true", "false", "exit", "return", "break", "continue", "cd", "pwd", "export", "readonly",
    "unset", "set", "shift", "read", "kill", "test", "[", "echo", "printf", "local", "trap",
    "umask", "wait", "ulimit", "alias", "eval", "exec", "command", ".", "type"]

/-- Decides a condition for the command of a name. -/
def testCondition (name : Text) (words : List Text) : Run Unit := do
  let p ← get
  match Condition.holds p.world.tree p.cwd words with
  | .ok b => setStatus (if b then 0 else 1)
  | .error why => fail (name ++ ": " ++ why) 2

/-- Runs a command of the shell that runs no other; the result says whether it was one. -/
def ownCommand (name : Text) (words : List Text) : Run Bool := do
  let shown (done : Performance) : Run Unit := do
    for c in done.complaints do complain c
    if ((← get).sinks.get? 1).isNone && !done.out.isEmpty then
      fail (name ++ ": " ++ name ++ ": I/O error") 1
    else
      emit 1 done.out
      setStatus done.status
  match String.ofList name with
  | ":" | "true" | "umask" | "ulimit" | "alias" => setStatus 0; pure true
  | "wait" => await; pure true
  | "trap" => trap words; pure true
  | "false" => setStatus 1; pure true
  | "exit" => endWith "exit" words .exit; pure true
  | "return" => endWith "return" words .giveBack; pure true
  | "break" => leaveLoops (← depthOf "break" words) .leave; pure true
  | "continue" => leaveLoops (← depthOf "continue" words) .again; pure true
  | "cd" => changeDirectory words; pure true
  | "pwd" => emit 1 (Octets.ofBytes (Tree.pathOf (← get).cwd).bytes ++ "\n"); setStatus 0; pure true
  | "export" | "readonly" => exportAll words; pure true
  | "local" => setLocal words; pure true
  | "unset" =>
    modify fun p => { p with
      bindings := words.foldl (fun vs w => vs.erase w) p.bindings
      functions := words.foldl (fun fs w => fs.erase w) p.functions
      status := 0 }
    pure true
  | "set" => setOptions words; pure true
  | "shift" => shift words; pure true
  | "read" => readLine words; pure true
  | "kill" => kill words; pure true
  | "test" => testCondition name words; pure true
  | "[" =>
    if words.getLast? = some [']'] then testCondition name words.dropLast
    else fail "[: missing ]" 2
    pure true
  | "echo" => shown (Tools.shellEcho words); pure true
  | "printf" => shown (Tools.printf words); pure true
  | _ => pure false

end Script

end Host

end FishCheck
