import FishCheck.Host.Expression
import FishCheck.Host.Tools.Basic

/-!
# Tools that find and edit lines

Lines are found by expressions. An edit has an address, which says for which lines it
is, and prints, deletes or changes these lines.
-/

namespace FishCheck

namespace Host

namespace Tools

/-- The expressions that a search is for. -/
def searched (options : List (Char × Text)) (pattern : Text) : List Expression :=
  let fold (t : Text) : Text := if has options 'i' then t.map Char.toLower else t
  (Text.pieces (fold pattern)).map fun p =>
    if has options 'F' then Expression.fixed p else Expression.read (has options 'E') p

/-- The lines that an expression occurs in. -/
def grep (s : Surroundings) (words : List Text) : Performance :=
  let (options, operands) := optionsOf "e" words
  let (pattern, operands) := match value? options 'e' with
    | some p => (p, operands)
    | none => (operands.headD [], operands.drop 1)
  let es := searched options pattern
  let fold (t : Text) : Text := if has options 'i' then t.map Char.toLower else t
  let whole (e : Expression) (line : Text) : Bool :=
    if has options 'x' then Expression.matchHere (e.pieces ++ [.lineEnd]) line == some []
    else e.occursIn line
  let hit (line : Text) : Bool :=
    (es.any fun e => whole e (fold (content line))) != has options 'v'
  let (found, err) := inputs "grep" s operands
  let label (name : Text) : Text :=
    if 1 < operands.length && !has options 'h' || has options 'H' then name ++ [':'] else []
  let results := found.map fun (name, t) =>
    (name, ((linesOf t).zipIdx 1).filter fun (l : Text × Nat) => hit l.1)
  let any := results.any fun r => !r.2.isEmpty
  let out := results.flatMap fun (name, ls) =>
    if has options 'c' then label name ++ Text.decimal ls.length ++ ['\n']
    else if has options 'l' then (if ls.isEmpty then [] else name ++ ['\n'])
    else ls.flatMap fun (line, n) =>
      label name ++ (if has options 'n' then Text.decimal n ++ [':'] else []) ++
        content line ++ ['\n']
  { out := if has options 'q' then [] else out, err
    status := if err.isEmpty then (if any then 0 else 1) else 2 }

/-- The lines that an edit is for. -/
inductive Address
  | all
  | line (n : Nat)
  | last
  | found (e : Expression)
  | between (a b : Address)

/-- What an edit does. -/
inductive EditKind
  | print
  | delete
  | quit
  | number
  | replace (e : Expression) (new : Text) (everywhere print : Bool)

/-- Reads one simple address. -/
def readAddress : Text → Address × Text
  | '$' :: rest => (.last, rest)
  | '/' :: rest =>
    (.found (Expression.read false (rest.takeWhile (· ≠ '/'))), (rest.dropWhile (· ≠ '/')).drop 1)
  | t =>
    let digits := t.takeWhile Char.isDigit
    if digits.isEmpty then (.all, t) else (.line (number digits), t.drop digits.length)

/-- Takes a stretch up to a separator that no backslash precedes. -/
def upTo (d : Char) : Text → Text × Text
  | [] => ([], [])
  | '\\' :: c :: rest =>
    let (t, rest) := upTo d rest
    (if c = d then c :: t else '\\' :: c :: t, rest)
  | c :: rest =>
    if c = d then ([], rest)
    else
      let (t, rest) := upTo d rest
      (c :: t, rest)

/-- Reads the edits of a script; fuel is the length of the script. -/
def readEdits : Nat → Text → List (Address × Bool × EditKind)
  | 0, _ => []
  | fuel + 1, t =>
    let t := t.dropWhile fun c => c == ' ' || c == ';' || c == '\n'
    if t.isEmpty then []
    else
      let (first, t) := readAddress t
      let (address, t) := match t with
        | ',' :: rest =>
          let (second, rest) := readAddress rest
          (.between first second, rest)
        | t => (first, t)
      let (negated, t) := match t with
        | '!' :: rest => (true, rest)
        | t => (false, t)
      match t with
      | 'p' :: rest => (address, negated, .print) :: readEdits fuel rest
      | 'd' :: rest => (address, negated, .delete) :: readEdits fuel rest
      | 'q' :: rest => (address, negated, .quit) :: readEdits fuel rest
      | '=' :: rest => (address, negated, .number) :: readEdits fuel rest
      | 's' :: d :: rest =>
        let (pattern, rest) := upTo d rest
        let (new, rest) := upTo d rest
        let flags := rest.takeWhile fun c => c == 'g' || c == 'p'
        (address, negated, .replace (Expression.read false pattern) new (flags.contains 'g')
          (flags.contains 'p')) :: readEdits fuel (rest.drop flags.length)
      | _ => []

/-- Whether a line is at an address. -/
def isAt (n : Nat) (isLast : Bool) (line : Text) : Address → Bool
  | .all => true
  | .line m => n == m
  | .last => isLast
  | .found e => e.occursIn line
  | .between (.line a) (.line b) => a ≤ n && n ≤ b
  | .between (.line a) .last => a ≤ n
  | .between a _ => isAt n isLast line a

/-- What a match is replaced by: the match itself for `&`. -/
def replacement (found : Text) : Text → Text
  | [] => []
  | '&' :: rest => found ++ replacement found rest
  | '\\' :: 'n' :: rest => '\n' :: replacement found rest
  | '\\' :: c :: rest => c :: replacement found rest
  | c :: rest => c :: replacement found rest

/-- Replaces matches in a line; the result says whether there was one. -/
def substitute (e : Expression) (new : Text) (everywhere : Bool) : Nat → Text → Text × Bool
  | 0, t => (t, false)
  | fuel + 1, t =>
    match e.search [] t with
    | none => (t, false)
    | some (before, found, after) =>
      let start := before ++ replacement found new
      if everywhere && !after.isEmpty && !e.atStart then
        if found.isEmpty then
          let (more, _) := substitute e new everywhere fuel (after.drop 1)
          (start ++ after.take 1 ++ more, true)
        else
          let (more, _) := substitute e new everywhere fuel after
          (start ++ more, true)
      else (start ++ after, true)

/-- Takes one line through the edits: what it prints before its end, the line unless it
was deleted, and whether the run ends. -/
def editLine (n : Nat) (isLast : Bool) :
    List (Address × Bool × EditKind) → Text → Text × Option Text × Bool
  | [], line => ([], some line, false)
  | (address, negated, kind) :: rest, line =>
    if isAt n isLast line address = negated then editLine n isLast rest line
    else match kind with
      | .print =>
        let (out, l, stop) := editLine n isLast rest line
        (line ++ '\n' :: out, l, stop)
      | .number =>
        let (out, l, stop) := editLine n isLast rest line
        (Text.decimal n ++ '\n' :: out, l, stop)
      | .delete => ([], none, false)
      | .quit => ([], some line, true)
      | .replace e new everywhere print =>
        let (changed, hit) := substitute e new everywhere (line.length + 1) line
        let (out, l, stop) := editLine n isLast rest changed
        (if hit && print then changed ++ '\n' :: out else out, l, stop)

/-- Takes lines through the edits. -/
def editLines (edits : List (Address × Bool × EditKind)) (quiet : Bool) :
    Nat → List Text → Text
  | _, [] => []
  | n, line :: rest =>
    let (out, l, stop) := editLine n rest.isEmpty edits (content line)
    let ended := line.getLast? == some '\n'
    let shown := match l with
      | some l => if quiet then [] else if ended then l ++ ['\n'] else l
      | none => []
    out ++ shown ++ (if stop then [] else editLines edits quiet (n + 1) rest)

/-- Edits its operands line by line. -/
def sed (s : Surroundings) (words : List Text) : Performance :=
  let (options, operands) := optionsOf "e" words
  let scripts := options.filterMap fun o => if o.1 = 'e' then some o.2 else none
  let (script, operands) :=
    if scripts.isEmpty then (operands.headD [], operands.drop 1)
    else (Text.joinLines scripts, operands)
  filter "sed" s operands fun t =>
    editLines (readEdits script.length script) (has options 'n') 1 (linesOf t)

end Tools

end Host

end FishCheck
