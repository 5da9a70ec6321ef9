import FishCheck.Text.Basic

/-!
# Arithmetic in scripts

An arithmetic expansion holds an expression of whole numbers, names and operators. The
value is found while reading, by precedence; names stand for the numbers that their
variables hold.
-/

namespace FishCheck

namespace Shell

namespace Arithmetic

/-- Why an expression has no value. -/
inductive Trouble
  | divisionByZero
  /-- An operand is missing. -/
  | noOperand
  /-- Something is left after the expression. -/
  | leftover
  /-- A variable holds something else than a number. -/
  | illegal (t : Text)
deriving DecidableEq, Repr

/-- The wording of what is wrong with an expression. -/
def Trouble.message (expression : Text) : Trouble → Text
  | .divisionByZero => "arithmetic expression: division by zero: \"" ++ expression ++ "\""
  | .noOperand => "arithmetic expression: expecting primary: \"" ++ expression ++ "\""
  | .leftover => "arithmetic expression: expecting EOF: \"" ++ expression ++ "\""
  | .illegal t => "Illegal number: " ++ t

/-- A token of an expression. -/
inductive Token
  | number (n : Int)
  | name (t : Text)
  | op (t : Text)
deriving DecidableEq, Repr

/-- The operators of two characters. -/
def longOperators : List Text := ["==", "!=", "<=", ">=", "&&", "||", "<<", ">>"]

/-- The value of a digit in a base up to sixteen. -/
def digit? (base : Nat) (c : Char) : Option Nat :=
  let d :=
    if c.isDigit then c.toNat - '0'.toNat
    else if 'a' ≤ c ∧ c ≤ 'f' then c.toNat - 'a'.toNat + 10
    else if 'A' ≤ c ∧ c ≤ 'F' then c.toNat - 'A'.toNat + 10
    else base
  if d < base then some d else none

/-- The number at the front of a text, which starts with a digit, and what is after it.
A leading zero says that it is octal or hexadecimal. -/
def leadingNumber (t : Text) : Nat × Text :=
  let read (base : Nat) (t : Text) : Nat × Text :=
    let digits := t.takeWhile fun c => (digit? base c).isSome
    (digits.foldl (fun n c => base * n + (digit? base c).getD 0) 0, t.drop digits.length)
  match t with
  | '0' :: 'x' :: rest | '0' :: 'X' :: rest => read 16 rest
  | '0' :: _ => read 8 t
  | _ => read 10 t

/-- Cuts an expression into tokens; fuel is its length. -/
def tokens : Nat → Text → List Token
  | 0, _ => []
  | fuel + 1, t =>
    match t with
    | [] => []
    | c :: rest =>
      if c = ' ' ∨ c = '\t' ∨ c = '\n' then tokens fuel rest
      else if c.isDigit then
        let (n, rest) := leadingNumber t
        .number (Int.ofNat n) :: tokens fuel rest
      else if c.isAlpha ∨ c = '_' then
        let isPart (d : Char) : Bool := d.isAlphanum || d == '_'
        .name (t.takeWhile isPart) :: tokens fuel (t.dropWhile isPart)
      else if longOperators.contains (t.take 2) then .op (t.take 2) :: tokens fuel (t.drop 2)
      else .op [c] :: tokens fuel rest

/-- How strongly an operator with two operands binds. -/
def strength? (op : Text) : Option Nat :=
  match String.ofList op with
  | "||" => some 1
  | "&&" => some 2
  | "|" => some 3
  | "^" => some 4
  | "&" => some 5
  | "==" | "!=" => some 6
  | "<" | ">" | "<=" | ">=" => some 7
  | "<<" | ">>" => some 8
  | "+" | "-" => some 9
  | "*" | "/" | "%" => some 10
  | _ => none

/-- One for what holds and zero for what does not. -/
def truth (b : Bool) : Int := if b then 1 else 0

/-- The value of an operator. -/
def apply (op : Text) (a b : Int) : Except Trouble Int :=
  match String.ofList op with
  | "||" => .ok (truth (a != 0 || b != 0))
  | "&&" => .ok (truth (a != 0 && b != 0))
  | "|" => .ok (Int.ofNat (a.toNat ||| b.toNat))
  | "^" => .ok (Int.ofNat (a.toNat ^^^ b.toNat))
  | "&" => .ok (Int.ofNat (a.toNat &&& b.toNat))
  | "==" => .ok (truth (a == b))
  | "!=" => .ok (truth (a != b))
  | "<" => .ok (truth (a < b))
  | ">" => .ok (truth (b < a))
  | "<=" => .ok (truth (a ≤ b))
  | ">=" => .ok (truth (b ≤ a))
  | "<<" => .ok (a * Int.pow 2 b.toNat)
  | ">>" => .ok (a / Int.pow 2 b.toNat)
  | "+" => .ok (a + b)
  | "-" => .ok (a - b)
  | "*" => .ok (a * b)
  | "/" => if b = 0 then .error .divisionByZero else .ok (a.tdiv b)
  | "%" => if b = 0 then .error .divisionByZero else .ok (a.tmod b)
  | _ => .error .leftover

/-- A reader of expressions gives a value and the tokens that are left. -/
abbrev Reading := Except Trouble (Int × List Token)

mutual

/-- The value of one operand. -/
def operand (valueOf : Text → Except Trouble Int) : Nat → List Token → Reading
  | 0, _ => .error .noOperand
  | fuel + 1, ts =>
    match ts with
    | .number n :: rest => .ok (n, rest)
    | .name t :: rest => (valueOf t).map fun n => (n, rest)
    | .op ['-'] :: rest => (operand valueOf fuel rest).map fun (n, r) => (-n, r)
    | .op ['+'] :: rest => operand valueOf fuel rest
    | .op ['~'] :: rest => (operand valueOf fuel rest).map fun (n, r) => (-n - 1, r)
    | .op ['!'] :: rest => (operand valueOf fuel rest).map fun (n, r) => (truth (n == 0), r)
    | .op ['('] :: rest => do
      let (n, rest) ← choice valueOf fuel rest
      match rest with
      | .op [')'] :: rest => pure (n, rest)
      | _ => .error .noOperand
    | _ => .error .noOperand

/-- The value of an expression whose operators bind at least so strongly. -/
def expression (valueOf : Text → Except Trouble Int) : Nat → Nat → List Token → Reading
  | 0, _, _ => .error .noOperand
  | fuel + 1, least, ts => do
    let (a, rest) ← operand valueOf fuel ts
    continued valueOf fuel least a rest

/-- Goes on with an expression after its first operand. -/
def continued (valueOf : Text → Except Trouble Int) : Nat → Nat → Int → List Token → Reading
  | 0, _, _, _ => .error .noOperand
  | fuel + 1, least, a, ts =>
    match ts with
    | .op o :: rest =>
      match strength? o with
      | none => .ok (a, ts)
      | some s =>
        if s < least then .ok (a, ts)
        else do
          let (b, rest) ← expression valueOf fuel (s + 1) rest
          let v ← apply o a b
          continued valueOf fuel least v rest
    | _ => .ok (a, ts)

/-- The value of an expression that may choose between two others. -/
def choice (valueOf : Text → Except Trouble Int) : Nat → List Token → Reading
  | 0, _ => .error .noOperand
  | fuel + 1, ts => do
    let (a, rest) ← expression valueOf fuel 0 ts
    match rest with
    | .op ['?'] :: rest =>
      let (b, rest) ← choice valueOf fuel rest
      match rest with
      | .op [':'] :: rest =>
        let (c, rest) ← choice valueOf fuel rest
        pure (if a = 0 then c else b, rest)
      | _ => .error .noOperand
    | _ => pure (a, rest)

end

/-- The value of an expression. -/
def evaluate (valueOf : Text → Except Trouble Int) (t : Text) : Except Trouble Int :=
  let ts := tokens t.length t
  match choice valueOf (6 * ts.length + 6) ts with
  | .ok (n, []) => .ok n
  | .ok _ => .error .leftover
  | .error e => .error e

end Arithmetic

end Shell

end FishCheck
