import FishCheck.Text.Basic

/-!
# Regular expressions of line tools

The line tools look for expressions made of characters, `.`, brackets, repetitions and
anchors. A match is the leftmost one, and each repetition takes as much as it can.
-/

namespace FishCheck

namespace Host

/-- What one character of a line is compared with. -/
inductive Sample
  | char (c : Char)
  | any
  | set (negated : Bool) (ranges : List (Char × Char))
deriving DecidableEq, Repr

/-- How often a sample is repeated: at least so often, and without end or at most once. -/
inductive Repetition
  | once
  | optional
  | many (atLeastOne : Bool)
deriving DecidableEq, Repr

/-- A piece of an expression. -/
inductive Piece
  | sample (s : Sample) (r : Repetition)
  | lineEnd
deriving DecidableEq, Repr

/-- An expression: whether it is tied to the start of the line, and its pieces. -/
structure Expression where
  atStart : Bool
  pieces : List Piece
deriving DecidableEq, Repr

namespace Expression

/-- Whether a sample takes a character. -/
def takes (c : Char) : Sample → Bool
  | .char d => c == d
  | .any => true
  | .set negated ranges => (ranges.any fun r => r.1 ≤ c && c ≤ r.2) != negated

/-- What is left of a line after a match at its front. -/
def matchHere : List Piece → Text → Option Text
  | [], t => some t
  | .lineEnd :: ps, t => if t.isEmpty then matchHere ps t else none
  | .sample s .once :: ps, t =>
    match t with
    | c :: cs => if takes c s then matchHere ps cs else none
    | [] => none
  | .sample s .optional :: ps, t =>
    match t with
    | c :: cs =>
      if takes c s then matchHere ps cs <|> matchHere ps (c :: cs) else matchHere ps (c :: cs)
    | [] => matchHere ps []
  | .sample s (.many atLeastOne) :: ps, t =>
    match t with
    | c :: cs =>
      if takes c s then
        matchHere (.sample s (.many false) :: ps) cs <|>
          (if atLeastOne then none else matchHere ps (c :: cs))
      else if atLeastOne then none else matchHere ps (c :: cs)
    | [] => if atLeastOne then none else matchHere ps []
termination_by ps t => (t.length, ps.length)

/-- The leftmost match in a line: what is before it, what it takes and what is after. -/
def search (e : Expression) (before : Text) : Text → Option (Text × Text × Text)
  | [] => (matchHere e.pieces []).map fun rest => (before.reverse, [], rest)
  | c :: cs =>
    match matchHere e.pieces (c :: cs) with
    | some rest => some (before.reverse, (c :: cs).take ((c :: cs).length - rest.length), rest)
    | none => if e.atStart then none else search e (c :: before) cs

/-- Whether an expression occurs in a line. -/
def occursIn (e : Expression) (line : Text) : Bool := (e.search [] line).isSome

/-- Reads the items of a bracket. -/
def readRanges (first : Bool) : Text → Option (List (Char × Char) × Text)
  | [] => none
  | ']' :: rest =>
    if first then (readRanges false rest).map fun (rs, r) => ((']', ']') :: rs, r)
    else some ([], rest)
  | a :: '-' :: ']' :: rest => some ([(a, a), ('-', '-')], rest)
  | a :: '-' :: b :: rest => (readRanges false rest).map fun (rs, r) => ((a, b) :: rs, r)
  | a :: rest => (readRanges false rest).map fun (rs, r) => ((a, a) :: rs, r)

/-- Reads one sample. -/
def readSample : Text → Option (Sample × Text)
  | [] => none
  | '.' :: rest => some (.any, rest)
  | '[' :: '^' :: rest => (readRanges true rest).map fun (rs, r) => (.set true rs, r)
  | '[' :: rest => (readRanges true rest).map fun (rs, r) => (.set false rs, r)
  | '\\' :: c :: rest => some (.char (if c = 'n' then '\n' else if c = 't' then '\t' else c), rest)
  | c :: rest => some (.char c, rest)

/-- Reads a repetition, in the plain or the extended style. -/
def readRepetition (extended : Bool) : Text → Repetition × Text
  | '*' :: rest => (.many false, rest)
  | '+' :: rest => if extended then (.many true, rest) else (.once, '+' :: rest)
  | '?' :: rest => if extended then (.optional, rest) else (.once, '?' :: rest)
  | '\\' :: '+' :: rest => if extended then (.once, '\\' :: '+' :: rest) else (.many true, rest)
  | '\\' :: '?' :: rest => if extended then (.once, '\\' :: '?' :: rest) else (.optional, rest)
  | t => (.once, t)

/-- Reads pieces; fuel is the length of the text. -/
def readPieces (extended : Bool) : Nat → Text → List Piece
  | 0, _ => []
  | fuel + 1, t =>
    if t = ['$'] then [.lineEnd]
    else match readSample t with
      | none => []
      | some (s, rest) =>
        let (r, rest) := readRepetition extended rest
        .sample s r :: readPieces extended fuel rest

/-- Reads an expression. -/
def read (extended : Bool) (t : Text) : Expression :=
  match t with
  | '^' :: rest => ⟨true, readPieces extended rest.length rest⟩
  | _ => ⟨false, readPieces extended t.length t⟩

/-- The expression that a fixed text is. -/
def fixed (t : Text) : Expression := ⟨false, t.map fun c => .sample (.char c) .once⟩

end Expression

end Host

end FishCheck
