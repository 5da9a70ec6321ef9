import FishCheck.Host.Tools.Counting
import FishCheck.Host.Tools.Editing
import FishCheck.Host.Tools.Ordering
import FishCheck.Host.Tools.Replacing

/-!
# Tools of a host

The tools that scripts are made of, by their names. A tool that does not read its
standard input leaves it to the next command.
-/

namespace FishCheck

namespace Host

namespace Tools

/-! ## Small ones -/

/-- The milliseconds of a duration. -/
def milliseconds (t : Text) : Option Nat :=
  let (t, unit) := match t.getLast? with
    | some 's' => (t.dropLast, 1)
    | some 'm' => (t.dropLast, 60)
    | some 'h' => (t.dropLast, 3600)
    | some 'd' => (t.dropLast, 86400)
    | _ => (t, 1)
  match fieldsOf '.' t with
  | [a] => (Text.natural? a).map fun n => n * unit * 1000
  | [a, b] =>
    let whole := if a.isEmpty then some 0 else Text.natural? a
    let fraction := (b ++ "000".toList).take 3
    whole.bind fun n => (Text.natural? fraction).map fun m => (n * 1000 + m) * unit
  | _ => none

/-- Waits. -/
def sleep (s : Surroundings) (words : List Text) : Performance :=
  let operands := words.filter (· ≠ "--".toList)
  let invalid := operands.filter fun w => (milliseconds w).isNone
  match wrongOption? "" words with
  | some why => misuse "sleep" s why
  | none =>
    if operands.isEmpty then misuse "sleep" s "missing operand"
    else if invalid.isEmpty then
      { duration := Text.total (operands.filterMap milliseconds), rest := s.stdin }
    else
      misuse "sleep" s ("\nsleep: ".toList.intercalate
        (invalid.map fun w => "invalid time interval '" ++ w ++ "'"))

/-- The name at the end of a path, without an ending if one is given. -/
def basename (words : List Text) : Performance :=
  let p := words.headD []
  let trimmed := (p.reverse.dropWhile (· == '/')).reverse
  let name := if trimmed.isEmpty && !p.isEmpty then ['/'] else (fieldsOf '/' trimmed).getLastD []
  let name := match words[1]? with
    | some e =>
      if e.isSuffixOf name && e.length < name.length then name.take (name.length - e.length)
      else name
    | none => name
  { out := name ++ ['\n'] }

/-- The path without the name at its end. -/
def dirname (words : List Text) : Performance :=
  let p := words.headD []
  let trimmed := (p.reverse.dropWhile (· == '/')).reverse
  let dir := ((trimmed.reverse.dropWhile (· ≠ '/')).dropWhile (· == '/')).reverse
  let dir := if !dir.isEmpty then dir else if p.head? = some '/' then ['/'] else ['.']
  { out := dir ++ ['\n'] }

/-- The numbers from one to another. -/
def seq (words : List Text) : Performance :=
  let (a, b) := match words.map number with
    | [b] => (1, b)
    | a :: b :: _ => (a, b)
    | [] => (1, 0)
  { out := ((List.range (b + 1 - a)).flatMap fun n => Text.decimal (a + n) ++ ['\n']) }

/-- Copies its standard input to its output and into files. -/
def tee (s : Surroundings) (words : List Text) : Performance :=
  let (_, operands) := optionsOf "" words
  { out := s.stdin, writes := operands.map fun o => (o, s.stdin) }

/-- The lines of its operands, each written backwards. -/
def rev (s : Surroundings) (words : List Text) : Performance :=
  filter "rev" s words fun t =>
    (linesOf t).flatMap fun l =>
      (content l).reverse ++ (if l.getLast? = some '\n' then ['\n'] else [])

/-- The settings of the variables. -/
def showVariables (s : Surroundings) : Performance :=
  { out := s.bindings.flatMap fun v => v.1 ++ '=' :: v.2 ++ ['\n'], rest := s.stdin }

/-! ## All of them -/

/-- The tools of a host. -/
def names : List Text :=
  ["true", "false", "echo", "printf", "pwd", "cat", "wc", "tr", "sleep", "head", "tail", "cut",
    "grep", "sed", "sort", "uniq", "rev", "tee", "basename", "dirname", "seq", "printenv"]

/-- Runs a tool. -/
def run (name : Text) (s : Surroundings) (words : List Text) : Option Performance :=
  let keeping (p : Performance) : Option Performance := some { p with rest := s.stdin }
  match String.ofList name with
  | "true" => keeping {}
  | "false" => keeping { status := 1 }
  | "echo" => keeping (echo words)
  | "printf" => keeping (printf words)
  | "pwd" => keeping { out := s.cwd ++ ['\n'] }
  | "cat" => some (cat s words)
  | "wc" => some (wc s words)
  | "tr" => some (tr s words)
  | "sleep" => some (sleep s words)
  | "head" => some (head s words)
  | "tail" => some (tail s words)
  | "cut" => some (cut s words)
  | "grep" => some (grep s words)
  | "sed" => some (sed s words)
  | "sort" => some (sort s words)
  | "uniq" => some (uniq s words)
  | "rev" => some (rev s words)
  | "tee" => some (tee s words)
  | "basename" => keeping (basename words)
  | "dirname" => keeping (dirname words)
  | "seq" => keeping (seq words)
  | "printenv" => some (showVariables s)
  | _ => none

end Tools

end Host

end FishCheck
