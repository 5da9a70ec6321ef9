import FishCheck.Host.Tree
import FishCheck.Text.Octets

/-!
# What tools share

The small programs that scripts are made of read standard input or files, write
standard output and end with a status. A tool is a function of its arguments and of
what it sees. Here is what they see and do, and how their command lines are read.
Texts are bytes seen as characters.
-/

namespace FishCheck

namespace Host

/-- What a tool sees when it runs. -/
structure Surroundings where
  stdin : Text
  /-- The content of the file at a path. -/
  open? : Text → Except Fault Text
  cwd : Text
  bindings : List (Text × Text)

/-- What a tool does. -/
structure Performance where
  out : Text := []
  err : Text := []
  /-- What the shell reports with the place of the command. -/
  complaints : List Text := []
  status : Nat := 0
  /-- What it leaves unread of its standard input. -/
  rest : Text := []
  /-- How long it takes, in milliseconds. -/
  duration : Nat := 0
  /-- What it writes into files. -/
  writes : List (Text × Text) := []

namespace Tools

/-! ## Lines, options and messages -/

/-- The lines of a text, each with its line feed if it has one. -/
def linesOf (t : Text) : List Text :=
  let ps := Text.pieces t
  let ended := ps.dropLast.map (· ++ ['\n'])
  match ps.getLast? with
  | some [] | none => ended
  | some last => ended ++ [last]

/-- The content of a line without its line feed. -/
def content (line : Text) : Text := if line.getLast? = some '\n' then line.dropLast else line

/-- What tools call a fault. -/
def reason : Fault → Text
  | .missing => "No such file or directory"
  | .badFormat => "Exec format error"
  | .accessDenied => "Permission denied"
  | .notDirectory => "Not a directory"
  | .isDirectory => "Is a directory"
  | .nameTooLong => "File name too long"
  | .linkLoop => "Too many levels of symbolic links"
  | .zeroByte => "Invalid argument"

/-- A message of a tool about an operand. -/
def complain (tool : String) (operand : Text) (why : Text) : Text :=
  tool.toList ++ ": ".toList ++ operand ++ ": ".toList ++ why ++ ['\n']

/-- Splits a cluster of options; one that takes a value takes the rest of the cluster or
the next word. -/
def cluster (valued : List Char) : Text → List Text → List (Char × Text) × List Text
  | [], rest => ([], rest)
  | c :: cs, rest =>
    if valued.contains c then
      match cs, rest with
      | [], value :: rest => ([(c, value)], rest)
      | [], [] => ([(c, [])], [])
      | cs, rest => ([(c, cs)], rest)
    else
      let (more, rest) := cluster valued cs rest
      ((c, []) :: more, rest)

/-- Separates the options of a command line from its operands; fuel is the number of
words. -/
def split (valued : List Char) : Nat → List Text → List (Char × Text) × List Text
  | 0, words => ([], words)
  | _, [] => ([], [])
  | fuel + 1, w :: ws =>
    match w with
    | ['-', '-'] => ([], ws)
    | '-' :: c :: cs =>
      let (found, rest) := cluster valued (c :: cs) ws
      let (more, operands) := split valued fuel rest
      (found ++ more, operands)
    | _ =>
      let (more, operands) := split valued fuel ws
      (more, w :: operands)

/-- Separates the options of a command line from its operands. -/
def optionsOf (valued : String) (words : List Text) : List (Char × Text) × List Text :=
  split valued.toList words.length words

/-- Whether an option is given. -/
def has (options : List (Char × Text)) (c : Char) : Bool := options.any fun o => o.1 == c

/-- The value of an option, the last one given. -/
def value? (options : List (Char × Text)) (c : Char) : Option Text :=
  (options.reverse.find? fun o => o.1 == c).map (·.2)

/-- A number as an operand. -/
def number (t : Text) : Nat := (Text.natural? t).getD 0

/-- Whether a character is a blank of the tools. -/
def isBlank (c : Char) : Bool := c == ' ' || ('\t' ≤ c && c ≤ '\r')

/-- A whole number with blanks around it. -/
def integer? (t : Text) : Option Int :=
  let t := ((t.dropWhile isBlank).reverse.dropWhile isBlank).reverse
  match t with
  | '-' :: rest => (Text.natural? rest).map fun n => -(Int.ofNat n)
  | '+' :: rest => (Text.natural? rest).map Int.ofNat
  | _ => (Text.natural? t).map Int.ofNat

/-- A failure that the usage of a tool explains. -/
def misuse (tool : String) (s : Surroundings) (why : Text) : Performance where
  err := tool.toList ++ ": " ++ why ++ "\nTry '" ++ tool.toList ++
    " --help' for more information.\n"
  status := 1
  rest := s.stdin

/-- Writes the long names of options as the short ones. -/
def shortened (names : List (String × Char)) (w : Text) : Text :=
  match names.find? fun n => "--".toList ++ n.1.toList = w with
  | some n => ['-', n.2]
  | none => w

/-- What is wrong with the options of a command line, if something is. -/
def wrongOption? (known : String) (words : List Text) : Option Text :=
  (words.takeWhile (· ≠ "--".toList)).findSome? fun w =>
    match w with
    | '-' :: '-' :: _ => some ("unrecognized option '" ++ w ++ "'")
    | '-' :: cs =>
      (cs.find? fun c => !known.toList.contains c).map fun c =>
        "invalid option -- '".toList ++ [c, '\'']
    | _ => none

/-- Reads the operands as files, and standard input for `-` or when there are none. What
was read of standard input once is not there again. -/
def inputs (tool : String) (s : Surroundings) (operands : List Text) :
    List (Text × Text) × Text :=
  let operands := if operands.isEmpty then [['-']] else operands
  let (found, err, _) := operands.foldl (fun (found, err, left) o =>
    if o = ['-'] ∨ o = "/dev/stdin".toList then (found ++ [(o, left)], err, [])
    else match s.open? o with
      | .ok t => (found ++ [(o, t)], err, left)
      | .error f => (found, err ++ complain tool o (reason f), left)) ([], [], s.stdin)
  (found, err)

/-- A tool that turns the joined content of its operands into its output. -/
def filter (tool : String) (s : Surroundings) (operands : List Text) (f : Text → Text) :
    Performance :=
  let (found, err) := inputs tool s operands
  { out := f (found.flatMap (·.2)), err, status := if err.isEmpty then 0 else 1 }

end Tools

end Host

end FishCheck
