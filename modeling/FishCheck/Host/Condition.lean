import FishCheck.Host.Machine

/-!
# Conditions

The test command decides on texts, numbers and files. An operand that looks like an
operator is taken for one only where an operator makes sense; with three operands the
one in the middle comes first.
-/

namespace FishCheck

namespace Host

namespace Condition

/-- What an operand is taken for. -/
inductive Role
  | nothing
  | operand
  | unary
  | binary
  | negation
  | conjunction
  | disjunction
  | opening
  | closing
deriving DecidableEq, Repr

/-- The operators on one operand. -/
def unaryOperators : List Text :=
  ["-n", "-z", "-e", "-f", "-d", "-r", "-w", "-x", "-s", "-h", "-L", "-t", "-b", "-c", "-p", "-u",
    "-g", "-k", "-S", "-O", "-G"]

/-- The operators on two operands. -/
def binaryOperators : List Text :=
  ["=", "==", "!=", "<", ">", "-eq", "-ne", "-lt", "-le", "-gt", "-ge", "-nt", "-ot", "-ef"]

/-- What a word can be. -/
def roleOf (w : Text) : Role :=
  match w with
  | ['!'] => .negation
  | ['('] => .opening
  | [')'] => .closing
  | ['-', 'a'] => .conjunction
  | ['-', 'o'] => .disjunction
  | _ =>
    if unaryOperators.contains w then .unary
    else if binaryOperators.contains w then .binary
    else .operand

/-- What the first word is taken for, given the words after it. -/
def classify : List Text → Role
  | [] => .nothing
  | w :: rest =>
    match roleOf w with
    | .unary =>
      match rest with
      | [] => .operand
      | [_] => .unary
      | next :: _ => if roleOf next = .binary then .operand else .unary
    | .opening => if rest.isEmpty then .operand else .opening
    | r => r

/-- A condition on one operand. -/
def unary (tree : Tree) (cwd : Location) (op x : Text) : Bool :=
  match String.ofList op with
  | "-n" => !x.isEmpty
  | "-z" => x.isEmpty
  | "-e" | "-r" | "-w" => tree.present cwd (wordPath x)
  | "-f" => tree.isFile cwd (wordPath x)
  | "-d" => tree.isDirectory cwd (wordPath x)
  | "-x" => (runnable tree cwd (wordPath x)).toOption.isSome || tree.isDirectory cwd (wordPath x)
  | "-s" => ((tree.read cwd (wordPath x)).toOption.map (!·.isEmpty)).getD false
  | "-h" | "-L" =>
    match tree.resolve cwd (wordPath x) false with
    | .ok ⟨_, some (.link _)⟩ => true
    | _ => false
  | _ => false

/-- A number as an operand of a comparison. -/
def number (t : Text) : Except Text Int :=
  match Tools.integer? t with
  | some n => .ok n
  | none => .error ("Illegal number: " ++ t)

/-- A comparison of two numbers. -/
def compare (test : Int → Int → Bool) (x y : Text) : Except Text Bool := do
  let a ← number x
  let b ← number y
  pure (test a b)

/-- A condition on two operands. -/
def binary (op x y : Text) : Except Text Bool :=
  match String.ofList op with
  | "=" | "==" => .ok (x == y)
  | "!=" => .ok (x != y)
  | "<" => .ok !(Tools.precedes y x)
  | ">" => .ok !(Tools.precedes x y)
  | "-eq" => compare (· == ·) x y
  | "-ne" => compare (· != ·) x y
  | "-lt" => compare (· < ·) x y
  | "-le" => compare (· ≤ ·) x y
  | "-gt" => compare (· > ·) x y
  | "-ge" => compare (· ≥ ·) x y
  | _ => .ok false

/-- A reader of conditions is given what the first word is taken for and the words. It
gives the truth and the words from the last one that it used. -/
abbrev Reading := Except Text (Bool × List Text)

mutual

/-- Reads alternatives. -/
def readEither (tree : Tree) (cwd : Location) : Nat → Role → List Text → Reading
  | 0, _, ws => .ok (false, ws)
  | fuel + 1, role, ws => do
    let (a, ws) ← readBoth tree cwd fuel role ws
    if classify (ws.drop 1) = .disjunction then
      let next := ws.drop 2
      let (b, ws) ← readEither tree cwd fuel (classify next) next
      pure (a || b, ws)
    else pure (a, ws)

/-- Reads what has to hold together. -/
def readBoth (tree : Tree) (cwd : Location) : Nat → Role → List Text → Reading
  | 0, _, ws => .ok (false, ws)
  | fuel + 1, role, ws => do
    let (a, ws) ← readNegation tree cwd fuel role ws
    if classify (ws.drop 1) = .conjunction then
      let next := ws.drop 2
      let (b, ws) ← readBoth tree cwd fuel (classify next) next
      pure (a && b, ws)
    else pure (a, ws)

/-- Reads a condition that may be negated. -/
def readNegation (tree : Tree) (cwd : Location) : Nat → Role → List Text → Reading
  | 0, _, ws => .ok (false, ws)
  | fuel + 1, role, ws =>
    if role ≠ .negation then readPrimary tree cwd fuel role ws
    else do
      let role := classify (ws.drop 1)
      let (a, ws) ← readNegation tree cwd fuel role (if role = .nothing then ws else ws.drop 1)
      pure (!a, ws)

/-- Reads a condition without joints. -/
def readPrimary (tree : Tree) (cwd : Location) : Nat → Role → List Text → Reading
  | 0, _, ws => .ok (false, ws)
  | fuel + 1, role, ws =>
    match role, ws with
    | .nothing, _ | _, [] => .ok (false, ws)
    | .opening, _ :: inner =>
      if classify inner = .closing then .ok (false, inner)
      else do
        let (a, ws) ← readEither tree cwd fuel (classify inner) inner
        if classify (ws.drop 1) = .closing then pure (a, ws.drop 1)
        else .error "closing paren expected"
    | .unary, op :: rest =>
      match rest with
      | [] => .error (op ++ ": argument expected")
      | x :: _ => .ok (unary tree cwd op x, rest)
    | _, x :: rest =>
      if classify rest = .binary then
        match rest with
        | op :: y :: _ => do pure (← binary op x y, rest.drop 1)
        | _ => .error (rest.headD [] ++ ": argument expected")
      else .ok (!x.isEmpty, ws)

end

/-- Takes off the parentheses around three or four operands. -/
def stripped (ws : List Text) : List Text :=
  if (ws.length = 3 ∨ ws.length = 4) ∧ ws.head? = some ['('] ∧ ws.getLast? = some [')'] then
    (ws.drop 1).dropLast
  else ws

/-- Decides on operands of which a leading negation is known to be one. -/
def decide (tree : Tree) (cwd : Location) (role : Role) (ws : List Text) : Except Text Bool := do
  match ← readEither tree cwd (4 * ws.length + 4) role ws with
  | (_, extra :: _ :: _) => .error (extra ++ ": unexpected operator")
  | (a, _) => .ok a

/-- Whether a condition holds, or why it is malformed. -/
def holds (tree : Tree) (cwd : Location) : List Text → Except Text Bool
  | [] => .ok false
  | ws =>
    match ws with
    | [['!'], a, b, c] => do pure !(← holds tree cwd [a, b, c])
    | [x, op, y] =>
      if roleOf op = .binary then decide tree cwd .operand ws
      else if x = ['!'] then do pure !(← holds tree cwd [op, y])
      else decide tree cwd (classify (stripped ws)) (stripped ws)
    | _ => decide tree cwd (classify (stripped ws)) (stripped ws)
termination_by ws => ws.length

end Condition

end Host

end FishCheck
