import FishCheck.Host.Tools.Escape

/-!
# The tool that replaces characters

A set of characters is spelled with ranges, classes and repetitions. Characters of one
set are replaced by those of another one, deleted, or written once where they are
repeated.
-/

namespace FishCheck

namespace Host

namespace Tools

/-- The characters of a class. -/
def classOf? (name : Text) : Option (List Char) :=
  let among (p : Char → Bool) : Option (List Char) :=
    some (((List.range 256).map Char.ofNat).filter p)
  let graphic (c : Char) : Bool := '!' ≤ c && c ≤ '~'
  match String.ofList name with
  | "upper" => among Char.isUpper
  | "lower" => among Char.isLower
  | "alpha" => among Char.isAlpha
  | "digit" => among Char.isDigit
  | "xdigit" => among fun c => (hexDigit? c).isSome
  | "alnum" => among Char.isAlphanum
  | "space" => among isBlank
  | "blank" => some ['\t', ' ']
  | "punct" => among fun c => graphic c && !c.isAlphanum
  | "graph" => among graphic
  | "print" => among fun c => graphic c || c == ' '
  | "cntrl" => among fun c => c < ' ' || c == '\x7F'
  | _ => none

/-- A set of characters in order; a repetition fills up what is missing. -/
structure CharSet where
  front : List Char := []
  filler : Option Char := none
  back : List Char := []

/-- The characters of a set, drawn out to a length. -/
def CharSet.drawnOut (s : CharSet) (length : Nat) : List Char :=
  match s.filler with
  | some c => s.front ++ List.replicate (length - s.front.length - s.back.length) c ++ s.back
  | none => s.front

/-- Adds characters in front of a set. -/
def CharSet.after (cs : List Char) (s : CharSet) : CharSet := { s with front := cs ++ s.front }

/-- Reads a set whose escapes are undone; a character that was escaped means itself. -/
def setOf : Nat → List (Char × Bool) → Except Text CharSet
  | 0, _ => .ok {}
  | fuel + 1, t =>
    match t with
    | [] => .ok {}
    | ('[', false) :: (':', false) :: rest =>
      let name := (rest.takeWhile (·.1 ≠ ':')).map (·.1)
      match rest.drop name.length with
      | _ :: (']', false) :: rest =>
        match classOf? name with
        | some cs => (setOf fuel rest).map (CharSet.after cs)
        | none => .error ("invalid character class '" ++ name ++ "'")
      | _ => (setOf fuel ((':', false) :: rest)).map (CharSet.after ['['])
    | ('[', false) :: ('=', false) :: c :: ('=', false) :: (']', false) :: rest =>
      (setOf fuel rest).map (CharSet.after [c.1])
    | ('[', false) :: c :: ('*', false) :: rest =>
      let digits := (rest.takeWhile fun d => d.1.isDigit).map (·.1)
      match rest.drop digits.length with
      | (']', false) :: rest =>
        let n := if digits.head? = some '0' then (digitsIn 8 0 digits).1 else number digits
        if n = 0 then (setOf fuel rest).map fun s => { filler := some c.1, back := s.front }
        else (setOf fuel rest).map (CharSet.after (List.replicate n c.1))
      | _ => (setOf fuel (c :: ('*', false) :: rest)).map (CharSet.after ['['])
    | a :: ('-', false) :: b :: rest =>
      if b.1 < a.1 then
        .error ("range-endpoints of '" ++ [a.1, '-', b.1] ++
          "' are in reverse collating sequence order")
      else
        (setOf fuel rest).map (CharSet.after
          (((List.range 256).map Char.ofNat).filter fun c => a.1 ≤ c && c ≤ b.1))
    | c :: rest => (setOf fuel rest).map (CharSet.after [c.1])

/-- Undoes the escapes of an operand and says which characters were escaped. -/
def marked : Nat → Text → List (Char × Bool)
  | 0, _ => []
  | fuel + 1, t =>
    match t with
    | [] => []
    | '\\' :: c :: rest =>
      if '0' ≤ c ∧ c ≤ '7' then
        let (value, rest) := octal 3 0 (c :: rest)
        (Char.ofNat (value % 256), true) :: marked fuel rest
      else ((letterEscape? c).getD c, true) :: marked fuel rest
    | c :: rest => (c, false) :: marked fuel rest

/-- The set that an operand spells. -/
def setOperand (t : Text) : Except Text CharSet := setOf (t.length + 1) (marked t.length t)

/-- Drops repetitions of a character that is in a set. -/
def squeeze (set : List Char) : Text → Text
  | a :: b :: rest =>
    if a = b ∧ set.contains a then squeeze set (b :: rest) else a :: squeeze set (b :: rest)
  | t => t

/-- What is wrong with the number of operands, if something is. -/
def wrongCount? (deletes squeezes : Bool) (operands : List Text) : Option Text :=
  let single := deletes != squeezes
  let most := if deletes && !squeezes then 1 else 2
  let extra (why : Text) : Option Text :=
    operands[most]?.map fun w => "extra operand '" ++ w ++ "'" ++ why
  match operands with
  | [] => some "missing operand"
  | [first] =>
    if single then none
    else some ("missing operand after '" ++ first ++ "'\n" ++
      (if deletes then "Two strings must be given when both deleting and squeezing repeats.".toList
        else "Two strings must be given when translating."))
  | [_, _] => extra "\nOnly one string may be given when deleting without squeezing repeats."
  | _ => extra []

/-- Replaces characters of one set by those of another one. -/
def replaceAll (first second : List Char) (t : Text) : Text :=
  t.map fun c =>
    match first.reverse.idxOf? c with
    | some i => (second[first.length - 1 - i]? <|> second.getLast?).getD c
    | none => c

/-- Replaces, deletes and squeezes characters of its standard input. -/
def tr (s : Surroundings) (words : List Text) : Performance :=
  let isOption (w : Text) : Bool := match w with
    | '-' :: _ :: _ => w ≠ "--".toList
    | _ => false
  let words := words.map (shortened [("complement", 'c'), ("delete", 'd'),
    ("squeeze-repeats", 's'), ("truncate-set1", 't')])
  let flagWords := words.takeWhile isOption
  let operands := words.drop flagWords.length
  let operands := if operands.head? = some "--".toList then operands.drop 1 else operands
  let flags := flagWords.flatMap (·.drop 1)
  let deletes := flags.contains 'd'
  let squeezes := flags.contains 's'
  let failed (why : Text) : Performance :=
    { err := "tr: " ++ why ++ "\n", status := 1, rest := s.stdin }
  match wrongOption? "cCdst" flagWords <|> wrongCount? deletes squeezes operands with
  | some why => misuse "tr" s why
  | none =>
    match setOperand (operands.headD []), setOperand (operands[1]?.getD []) with
    | .error why, _ | _, .error why => failed why
    | .ok first, .ok second =>
      let first := first.front
      let first :=
        if flags.contains 'c' || flags.contains 'C' then
          ((List.range 256).map Char.ofNat).filter fun c => !first.contains c
        else first
      let second := second.drawnOut first.length
      let first := if flags.contains 't' then first.take second.length else first
      let given := operands.length = 2
      if given && !deletes && second.isEmpty && !flags.contains 't' then
        failed "when not truncating set1, string2 must be non-empty"
      else
        let t := s.stdin
        let t := if deletes then t.filter fun c => !first.contains c else t
        let t := if given && !deletes then replaceAll first second t else t
        { out := if squeezes then squeeze (if given then second else first) t else t }

end Tools

end Host

end FishCheck
