import FishCheck.Host.Machine

/-!
# From words to fields

The parts of a word give characters, some of them quoted. Where an expansion is not
quoted, its blanks split the word into fields, and a field with unquoted pattern
characters stands for the files it matches, if there are any.
-/

namespace FishCheck

namespace Host

/-- What the expansion of a word consists of. -/
inductive Bit
  /-- A character: whether it is quoted, and whether it may split the word. -/
  | char (c : Char) (quoted split : Bool)
  /-- A field is here even if it is empty. -/
  | mark
  /-- One field ends and another one starts. -/
  | boundary
  /-- The word vanishes if nothing else is in it. -/
  | vanish
deriving DecidableEq, Repr

namespace Bit

/-- The bits of a text. -/
def ofText (t : Text) (quoted split : Bool) : List Bit := t.map fun c => .char c quoted split

/-- The characters of bits, with whether they are quoted. -/
def characters (bits : List Bit) : List (Char × Bool) :=
  bits.filterMap fun
    | .char c quoted _ => some (c, quoted)
    | .boundary => some (' ', false)
    | _ => none

/-- The text of bits. -/
def text (bits : List Bit) : Text := (characters bits).map (·.1)

end Bit

/-! ## Parameters -/

/-- The characters that split fields. -/
def separators (p : Process) : Text :=
  match p.bindings.get? "IFS" with
  | some (t, _) => t
  | none => " \t\n"

/-- The value of a parameter, if it is set. -/
def valueOf? (p : Process) (name : Text) : Option Text :=
  match name with
  | ['#'] => some (Text.decimal p.parameters.length)
  | ['?'] => some (Text.decimal p.status)
  | ['$'] => some (Text.decimal p.number)
  | ['-'] => some (if p.strict then ['e'] else [])
  | ['!'] => some []
  | ['@'] | ['*'] => if p.parameters.isEmpty then none else some (Tools.spaced p.parameters)
  | _ =>
    match Text.natural? name with
    | some 0 => some p.name
    | some n => p.parameters[n - 1]?
    | none => (p.bindings.get? name).map (·.1)

/-- The bits of a parameter. -/
def parameterBits (p : Process) (name : Text) (quoted : Bool) : List Bit :=
  if name = ['@'] ∧ quoted then
    if p.parameters.isEmpty then [.vanish]
    else [Bit.boundary].intercalate (p.parameters.map fun t => .mark :: Bit.ofText t true false)
  else if name = ['*'] ∧ quoted then
    Bit.ofText (((separators p).take 1).intercalate p.parameters) true false
  else if name = ['@'] ∨ name = ['*'] then
    [Bit.boundary].intercalate (p.parameters.map fun t => Bit.ofText t false true)
  else Bit.ofText ((valueOf? p name).getD []) quoted (!quoted)

/-- Cuts a match of a pattern off a text, at the front. -/
def cutFront (pattern : List Shell.Atom) (longest : Bool) (t : Text) : Text :=
  let lengths := List.range (t.length + 1)
  let lengths := if longest then lengths.reverse else lengths
  match lengths.find? fun n => Shell.Pattern.isMatch pattern (t.take n) with
  | some n => t.drop n
  | none => t

/-- Cuts a match of a pattern off a text, at the end. -/
def cutBack (pattern : List Shell.Atom) (longest : Bool) (t : Text) : Text :=
  let lengths := List.range (t.length + 1)
  let lengths := if longest then lengths else lengths.reverse
  match lengths.find? fun n => Shell.Pattern.isMatch pattern (t.drop n) with
  | some n => t.take n
  | none => t

/-! ## Fields -/

/-- A field: its characters, and whether each is quoted. -/
abbrev Field := List (Char × Bool)

/-- Collects fields from bits; the field under way is kept in reverse. -/
def collect (seps : Text) : Option Field → List Bit → List Field
  | current, [] => (current.map List.reverse).toList
  | current, .mark :: bits => collect seps (some (current.getD [])) bits
  | current, .vanish :: bits =>
    collect seps (if current = some [] then none else current) bits
  | current, .boundary :: bits => (current.map List.reverse).toList ++ collect seps none bits
  | current, .char c quoted split :: bits =>
    if split && seps.contains c then
      if c == ' ' || c == '\t' || c == '\n' then
        (current.map List.reverse).toList ++ collect seps none bits
      else (current.getD []).reverse :: collect seps none bits
    else collect seps (some ((c, quoted) :: current.getD [])) bits

/-! ## Files that a field matches -/

/-- Cuts a field at its slashes. -/
def segmentsOf : Field → List Field
  | [] => [[]]
  | c :: cs =>
    if c.1 = '/' then [] :: segmentsOf cs
    else match segmentsOf cs with
      | s :: ss => (c :: s) :: ss
      | [] => [[c]]

/-- The paths that segments match, each with what leads to it. -/
def matchesIn (tree : Tree) (cwd : Location) : List Field → Text → List Text
  | [], so => [so]
  | s :: rest, so =>
    let literal : Text := s.map (·.1)
    let join (name : Text) : Text := so ++ name ++ (if rest.isEmpty then [] else ['/'])
    if Shell.Pattern.isPattern s then
      match tree.find cwd (wordPath (if so.isEmpty then ['.'] else so)) with
      | .ok (l, .directory) =>
        let pattern := Shell.Pattern.ofCharacters s
        let names := (tree.children l).map fun c => Octets.ofBytes c.1
        let found := names.filter fun n =>
          Shell.Pattern.isMatch pattern n && (n.head? != some '.' || literal.head? == some '.')
        (found.mergeSort Tools.precedes).flatMap fun n => matchesIn tree cwd rest (join n)
      | _ => []
    else matchesIn tree cwd rest (join literal)

/-- The texts that a field stands for: the files it matches, or else itself. -/
def filesOf (p : Process) (f : Field) : List Text :=
  let itself := f.map (·.1)
  if Shell.Pattern.isPattern f then
    let found := (matchesIn p.world.tree p.cwd (segmentsOf f) []).filter fun t =>
      (p.world.tree.resolve p.cwd (wordPath t) false).toOption.any fun s => s.node?.isSome
    if found.isEmpty then [itself] else found
  else [itself]

/-- The texts that bits stand for. -/
def fieldsOf (p : Process) (bits : List Bit) : List Text :=
  (collect (separators p) none bits).flatMap (filesOf p)

end Host

end FishCheck
