import FishCheck.Host.Tools.Printing

/-!
# Tools that count, join and cut

Lines, words and bytes are counted; files are joined; the first or last lines, or
chosen fields of each line, are cut out.
-/

namespace FishCheck

namespace Host

namespace Tools

/-- The number of words: a word starts with a visible character and ends at a blank. -/
def countWords (t : Text) : Nat :=
  (t.foldl (fun (n, inside) c =>
    if isBlank c then (n, false)
    else if inside || !(' ' < c && c ≤ '~') then (n, inside)
    else (n + 1, true)) (0, false)).1

/-- The width of the widest line, in columns. -/
def widest (t : Text) : Nat :=
  let step := fun (best, column) (c : Char) =>
    if c == '\n' || c == '\r' || c == '\x0C' then (max best column, 0)
    else if c == '\t' then (best, column + (8 - column % 8))
    else if ' ' ≤ c && c ≤ '~' then (best, column + 1)
    else (best, column)
  let (best, column) := t.foldl step (0, 0)
  max best column

/-- Counts lines, words and bytes. -/
def wc (s : Surroundings) (words : List Text) : Performance :=
  let words := words.map (shortened [("lines", 'l'), ("words", 'w'), ("chars", 'm'),
    ("bytes", 'c'), ("max-line-length", 'L')])
  match wrongOption? "lwmcL" words with
  | some why => misuse "wc" s why
  | none =>
  let (options, operands) := optionsOf "" words
  let (found, err) := inputs "wc" s operands
  let all := options.isEmpty
  let number (t : Text) : List Nat :=
    (if all || has options 'l' then [t.count '\n'] else []) ++
      (if all || has options 'w' then [countWords t] else []) ++
      (if has options 'm' then [t.length] else []) ++
      (if all || has options 'c' then [t.length] else [])
  let counts (t : Text) : List Nat := number t ++ (if has options 'L' then [widest t] else [])
  let columns := (counts []).length
  let total := Text.total (found.map fun f => f.2.length)
  let width :=
    if columns = 1 ∧ operands.length ≤ 1 then 1
    else if operands.isEmpty ∨ found.any fun f => f.1 = ['-'] then 7
    else (Text.decimal total).length
  let row (ns : List Nat) (name : Text) : Text :=
    spaced (ns.map fun n => pad false false width (Text.decimal n)) ++ name ++ ['\n']
  let rows := found.flatMap fun f => row (counts f.2) (if operands.isEmpty then [] else ' ' :: f.1)
  let sums := number (found.flatMap (·.2)) ++
    (if has options 'L' then [(found.map fun f => widest f.2).foldl max 0] else [])
  let sum := if 1 < operands.length then row sums " total" else []
  { out := rows ++ sum, err, status := if err.isEmpty then 0 else 1 }

/-- A character as `cat` shows it when asked to. -/
def visible (tabs others : Bool) (c : Char) : Text :=
  let plain (n : Nat) : Text :=
    if n < 32 then ['^', Char.ofNat (n + 64)]
    else if n = 127 then ['^', '?']
    else [Char.ofNat n]
  if c = '\t' then (if tabs then ['^', 'I'] else [c])
  else if !others || c = '\n' then [c]
  else if c.toNat < 128 then plain c.toNat
  else 'M' :: '-' :: plain (c.toNat - 128)

/-- Drops empty lines that follow an empty line. -/
def squeezeLines : List Text → List Text
  | a :: b :: rest =>
    if a = ['\n'] ∧ b = ['\n'] then squeezeLines (b :: rest) else a :: squeezeLines (b :: rest)
  | ls => ls

/-- Puts numbers in front of lines. -/
def numbered (blankToo : Bool) : Nat → List Text → List Text
  | _, [] => []
  | n, l :: ls =>
    if l = ['\n'] && !blankToo then l :: numbered blankToo n ls
    else (pad false false 6 (Text.decimal n) ++ '\t' :: l) :: numbered blankToo (n + 1) ls

/-- Joins its operands, and shows what is in them when asked to. -/
def cat (s : Surroundings) (words : List Text) : Performance :=
  let words := words.map (shortened [("show-all", 'A'), ("number-nonblank", 'b'),
    ("show-ends", 'E'), ("number", 'n'), ("squeeze-blank", 's'), ("show-tabs", 'T'),
    ("show-nonprinting", 'v')])
  match wrongOption? "AbeEnstTuv" words with
  | some why => misuse "cat" s why
  | none =>
  let (options, operands) := optionsOf "" words
  let any (cs : String) : Bool := cs.toList.any (has options)
  filter "cat" s operands fun t =>
    if any "AbeEnstTv" then
      let ls := linesOf t
      let ls := if any "s" then squeezeLines ls else ls
      let ls := if any "nb" then numbered (!any "b") 1 ls else ls
      ls.flatMap fun l =>
        let shown := (content l).flatMap (visible (any "AtT") (any "Aetv"))
        if l.getLast? = some '\n' then shown ++ (if any "AeE" then ['$', '\n'] else ['\n'])
        else shown
    else t

/-- The first lines or bytes of its operands. -/
def head (s : Surroundings) (words : List Text) : Performance :=
  let words := words.map fun w => match w with
    | '-' :: c :: cs => if c.isDigit then '-' :: 'n' :: c :: cs else w
    | _ => w
  let (options, operands) := optionsOf "nc" words
  filter "head" s operands fun t =>
    match value? options 'c' with
    | some n => t.take (number n)
    | none =>
      match value? options 'n' with
      | some ('-' :: n) => ((linesOf t).dropLast.take ((linesOf t).length - number n)).flatten
      | some n => ((linesOf t).take (number n)).flatten
      | none => ((linesOf t).take 10).flatten

/-- The last lines or bytes of its operands. -/
def tail (s : Surroundings) (words : List Text) : Performance :=
  let words := words.map fun w => match w with
    | '-' :: c :: cs => if c.isDigit then '-' :: 'n' :: c :: cs else w
    | _ => w
  let (options, operands) := optionsOf "nc" words
  filter "tail" s operands fun t =>
    match value? options 'c' with
    | some ('+' :: n) => t.drop (number n - 1)
    | some n => t.drop (t.length - number n)
    | none =>
      let ls := linesOf t
      match value? options 'n' with
      | some ('+' :: n) => (ls.drop (number n - 1)).flatten
      | some n => (ls.drop (ls.length - number n)).flatten
      | none => (ls.drop (ls.length - 10)).flatten

/-- Cuts a text at a character. -/
def fieldsOf (d : Char) : Text → List Text
  | [] => [[]]
  | c :: cs =>
    if c = d then [] :: fieldsOf d cs
    else match fieldsOf d cs with
      | f :: fs => (c :: f) :: fs
      | [] => [[c]]

/-- The ranges of a list such as `1,3-5`; an open end reaches to the last one. -/
def rangesOf (t : Text) : List (Nat × Option Nat) :=
  (fieldsOf ',' t).map fun r =>
    match fieldsOf '-' r with
    | [a] => (number a, some (number a))
    | [a, []] => (number a, none)
    | [[], b] => (1, some (number b))
    | a :: b :: _ => (number a, some (number b))
    | [] => (0, none)

/-- Whether a number is in one of the ranges. -/
def inRanges (ranges : List (Nat × Option Nat)) (n : Nat) : Bool :=
  ranges.any fun r => r.1 ≤ n && r.2.all fun b => n ≤ b

/-- The items of a list whose numbers are in the ranges. -/
def chosen (ranges : List (Nat × Option Nat)) (items : List α) : List α :=
  (items.zipIdx 1).filterMap fun (a, n) => if inRanges ranges n then some a else none

/-- Chosen fields or bytes of each line. -/
def cut (s : Surroundings) (words : List Text) : Performance :=
  let (options, operands) := optionsOf "dfcb" words
  filter "cut" s operands fun t =>
    (linesOf t).flatMap fun line =>
      let line := content line
      match value? options 'f' with
      | some list =>
        let d := ((value? options 'd').bind List.head?).getD '\t'
        if line.contains d then [d].intercalate (chosen (rangesOf list) (fieldsOf d line)) ++ ['\n']
        else if has options 's' then []
        else line ++ ['\n']
      | none =>
        let list := (value? options 'c' <|> value? options 'b').getD []
        chosen (rangesOf list) line ++ ['\n']

end Tools

end Host

end FishCheck
