import FishCheck.Path

/-!
# Globs of ignore files

A glob describes paths. `?` and `*` do not match a slash, `**` between slashes matches
any number of directories, braces give alternatives. Paths are matched byte by byte.
Alternatives are multiplied out when a glob is read, so a glob is a list of plain ones
of which one has to match.

Main results:

- Theorem `isMatch_literal`: a glob of literal bytes matches exactly those bytes.
-/

namespace FishCheck

namespace Glob

/-- A piece of a plain glob. -/
inductive Piece
  | byte (b : UInt8)
  /-- One byte other than a slash. -/
  | any
  /-- Any stretch without a slash. -/
  | many
  /-- Any directories in front, or none. -/
  | leading
  /-- A slash and anything under it. -/
  | trailing
  /-- A slash, or any directories between two slashes. -/
  | between
  | set (negated : Bool) (ranges : List (UInt8 × UInt8))
deriving DecidableEq, Repr

/-! ## Matching -/

/-- What can be left after taking a stretch without a slash. -/
def afterMany : Bytes → List Bytes
  | [] => [[]]
  | b :: bs => (b :: bs) :: (if b = Path.slash then [] else afterMany bs)

/-- What can be left after taking everything up to some slash and the slash. -/
def afterSlashes : Bytes → List Bytes
  | [] => []
  | b :: bs => (if b = Path.slash then [bs] else []) ++ afterSlashes bs

/-- What can be left after taking anything. -/
def afterAnything : Bytes → List Bytes
  | [] => [[]]
  | b :: bs => (b :: bs) :: afterAnything bs

/-- What can be left of bytes after taking one piece. -/
def Piece.rests (bs : Bytes) : Piece → List Bytes
  | .byte b => if bs.head? = some b then [bs.drop 1] else []
  | .any =>
    match bs with
    | b :: rest => if b = Path.slash then [] else [rest]
    | [] => []
  | .many => afterMany bs
  | .leading => bs :: afterSlashes bs
  | .trailing => if bs.head? = some Path.slash then afterAnything (bs.drop 1) else []
  | .between =>
    if bs.head? = some Path.slash then bs.drop 1 :: afterSlashes (bs.drop 1) else []
  | .set negated ranges =>
    match bs with
    | b :: rest => if (ranges.any fun r => r.1 ≤ b && b ≤ r.2) != negated then [rest] else []
    | [] => []

/-- Whether a plain glob matches bytes. -/
def matchesPlain : List Piece → Bytes → Bool
  | [], bs => bs.isEmpty
  | p :: ps, bs => (p.rests bs).any (matchesPlain ps)

end Glob

/-- A glob: one of its plain globs has to match. -/
structure Glob where
  alternatives : List (List Glob.Piece)
deriving DecidableEq, Repr

namespace Glob

/-- Whether a glob matches a path. A glob that is nothing but `**` matches every path. -/
def isMatch (g : Glob) (path : Bytes) : Bool :=
  g.alternatives == [[.leading]] || g.alternatives.any fun ps => matchesPlain ps path

/-- A glob of literal bytes matches exactly those bytes. -/
theorem isMatch_literal (s t : Bytes) : matchesPlain (s.map .byte) t = (s == t) := by
  induction s generalizing t with
  | nil => cases t <;> simp [matchesPlain]
  | cons b bs ih =>
    cases t with
    | nil => simp [matchesPlain, Piece.rests]
    | cons c cs =>
      simp only [List.map_cons, matchesPlain, Piece.rests, List.head?_cons, Option.some.injEq]
      by_cases h : c = b
      · simp [h, ih]
      · simp [h, Ne.symm h]

/-! ## Reading -/

/-- The ends of what is read: of the text, or at a comma or brace that ends an
alternative. -/
inductive Stop
  | text
  | comma
  | brace
deriving DecidableEq

/-- Adds a character to the last range of a set. -/
def closeRange (c : Char) : List (Char × Char) → Option (List (Char × Char))
  | (a, _) :: rest => if a ≤ c then some ((a, c) :: rest) else none
  | [] => none

/-- Reads the items of a set, kept in reverse, up to its closing bracket. -/
def readItems (first inRange : Bool) (found : List (Char × Char)) :
    Text → Option (List (Char × Char) × Text)
  | [] => none
  | c :: rest =>
    if c = ']' ∧ first = false then
      some ((if inRange then ('-', '-') :: found else found).reverse, rest)
    else if c = ']' then readItems false inRange ((']', ']') :: found) rest
    else if c = '-' ∧ first then readItems false inRange (('-', '-') :: found) rest
    else if c = '-' ∧ inRange = false then readItems false true found rest
    else if inRange then
      match closeRange c found with
      | some found => readItems false false found rest
      | none => none
    else readItems false false ((c, c) :: found) rest

/-- The bytes that a range of characters stands for: each byte of its ends is an item, and
the range goes from the last byte of the one to the first byte of the other. -/
def byteRanges (a b : Char) : List (UInt8 × UInt8) :=
  let lo := Utf8.encodeChar a
  if a = b then lo.map fun x => (x, x)
  else
    let hi := Utf8.encodeChar b
    (lo.dropLast.map fun x => (x, x)) ++ [(lo.getLastD 0, hi.headD 0)] ++
      ((hi.drop 1).map fun x => (x, x))

/-- Reads a set after its opening bracket. -/
def readSet (t : Text) : Option (Piece × Text) :=
  let (negated, t) := match t with
    | '!' :: rest | '^' :: rest => (true, rest)
    | _ => (false, t)
  (readItems true false [] t).map fun (items, rest) =>
    (.set negated (items.flatMap fun r => byteRanges r.1 r.2), rest)

/-- The pieces of a literal character. -/
def literal (c : Char) : List Piece := (Utf8.encodeChar c).map .byte

/-- Every choice from one list followed by every choice from another. -/
def multiply (as bs : List (List Piece)) : List (List Piece) :=
  as.flatMap fun a => bs.map fun b => a ++ b

/-- What two stars at a place stand for, given what was read before them in the
alternative (in reverse), the character before them, whether they are in braces, and
what follows them. The result is what was read, now with them, and what is left. -/
def readStars (found : List (List (List Piece))) (before? : Option Char) (inBraces : Bool)
    (rest : Text) : List (List (List Piece)) × Text :=
  let plain := ([[.many]] :: [[.many]] :: found, rest)
  let follows (r : Text) : Bool := r.head?.all (· == '/')
  if found.isEmpty then
    if follows rest then ([[[.leading]]], rest.drop 1) else plain
  else if before? ≠ some '/' ∧ (inBraces = false ∨ (before? ≠ some ',' ∧ before? ≠ some '{')) then
    plain
  else
    let atEnd := rest.isEmpty || (inBraces && (rest.head? == some ',' || rest.head? == some '}'))
    if !atEnd && rest.head? != some '/' then plain
    else
      let rest := if atEnd then rest else rest.drop 1
      match found with
      | [[.leading]] :: more => ([[.leading]] :: more, rest)
      | [[.trailing]] :: more => ([[.trailing]] :: more, rest)
      | _ :: more => ([[if atEnd then .trailing else .between]] :: more, rest)
      | [] => ([], rest)

mutual

/-- Reads an alternative: its plain globs, why it stops and what is left. What was read of
it is kept in reverse, as the choices at each place. -/
def readAlternative : Nat → Bool → Option Char → List (List (List Piece)) → Text →
    Option (List (List Piece) × Stop × Text)
  | 0, _, _, _, _ => none
  | fuel + 1, inBraces, before?, found, t =>
    let done := found.foldl (fun after choices => multiply choices after) [[]]
    match t with
    | [] => if inBraces then none else some (done, .text, [])
    | '*' :: '*' :: rest =>
      let (found, left) := readStars found before? inBraces rest
      let last? := if left.length < rest.length then some '/' else some '*'
      readAlternative fuel inBraces last? found left
    | '*' :: rest => readAlternative fuel inBraces (some '*') ([[.many]] :: found) rest
    | '?' :: rest => readAlternative fuel inBraces (some '?') ([[.any]] :: found) rest
    | '[' :: rest =>
      match readSet rest with
      | some (p, left) => readAlternative fuel inBraces (some ']') ([[p]] :: found) left
      | none => none
    | '{' :: rest =>
      match readBraces fuel '{' rest with
      | some (choices, left) =>
        let choices := choices.filter fun alternative => alternative.any (!·.isEmpty)
        let found := if choices.isEmpty then found else choices.flatten :: found
        readAlternative fuel inBraces (some '}') found left
      | none => none
    | '}' :: rest => if inBraces then some (done, .brace, rest) else none
    | ',' :: rest =>
      if inBraces then some (done, .comma, rest)
      else readAlternative fuel inBraces (some ',') ([literal ','] :: found) rest
    | ['\\'] => none
    | '\\' :: c :: rest => readAlternative fuel inBraces (some c) ([literal c] :: found) rest
    | c :: rest => readAlternative fuel inBraces (some c) ([literal c] :: found) rest

/-- Reads the alternatives between braces, after the character that opens each. -/
def readBraces : Nat → Char → Text → Option (List (List (List Piece)) × Text)
  | 0, _, _ => none
  | fuel + 1, before, t =>
    match readAlternative fuel true (some before) [] t with
    | some (a, .comma, rest) => (readBraces fuel ',' rest).map fun (as, left) => (a :: as, left)
    | some (a, _, rest) => some ([a], rest)
    | none => none

end

/-- Reads a glob; nothing when it is malformed. -/
def read? (t : Text) : Option Glob :=
  (readAlternative (2 * t.length + 2) false none [] t).map fun (alternatives, _) => ⟨alternatives⟩

end Glob

end FishCheck
