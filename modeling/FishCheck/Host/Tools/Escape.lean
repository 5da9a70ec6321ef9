import FishCheck.Host.Tools.Basic

/-!
# Escapes in the operands of tools

A backslash and what follows it stand for one character: a letter for a control
character, digits for the character of that number. The tools differ in a few escapes,
which their style says.
-/

namespace FishCheck

namespace Host

namespace Tools

/-- Reads up to some octal digits. -/
def octal : Nat → Nat → Text → Nat × Text
  | 0, value, t => (value, t)
  | n + 1, value, c :: cs =>
    if '0' ≤ c ∧ c ≤ '7' then octal n (8 * value + (c.toNat - '0'.toNat)) cs else (value, c :: cs)
  | _, value, [] => (value, [])

/-- The character of an escape that is a single letter. -/
def letterEscape? : Char → Option Char
  | 'a' => some '\x07'
  | 'b' => some '\x08'
  | 'e' => some '\x1B'
  | 'f' => some '\x0C'
  | 'n' => some '\n'
  | 'r' => some '\r'
  | 't' => some '\t'
  | 'v' => some '\x0B'
  | '\\' => some '\\'
  | _ => none

/-- The value of a hexadecimal digit. -/
def hexDigit? (c : Char) : Option Nat :=
  if '0' ≤ c ∧ c ≤ '9' then some (c.toNat - '0'.toNat)
  else if 'a' ≤ c ∧ c ≤ 'f' then some (c.toNat - 'a'.toNat + 10)
  else if 'A' ≤ c ∧ c ≤ 'F' then some (c.toNat - 'A'.toNat + 10)
  else none

/-- Reads a number in a base up to the first character that is no digit of it. -/
def digitsIn (base : Nat) : Nat → Text → Nat × Text
  | value, c :: cs =>
    match hexDigit? c with
    | some d => if d < base then digitsIn base (base * value + d) cs else (value, c :: cs)
    | none => (value, c :: cs)
  | value, [] => (value, [])

/-- Which escapes a text has. -/
inductive EscapeStyle
  /-- A backslash and `c` end the output. -/
  | shell
  /-- As in the shell, and numbers may be hexadecimal. -/
  | echo
  /-- No escape ends the output. -/
  | set
deriving DecidableEq

/-- Undoes the escapes of a text. The result says whether the output ends here. -/
def unescape (style : EscapeStyle) : Nat → Text → Text × Bool
  | 0, t => (t, false)
  | fuel + 1, t =>
    match t with
    | [] => ([], false)
    | '\\' :: c :: rest =>
      let hex := if style = .echo ∧ c = 'x' then digitsIn 16 0 (rest.take 2) else (0, rest.take 2)
      if c = 'c' ∧ style ≠ .set then ([], true)
      else if hex.2.length < (rest.take 2).length then
        let (more, stop) := unescape style fuel (hex.2 ++ rest.drop 2)
        (Char.ofNat hex.1 :: more, stop)
      else if '0' ≤ c ∧ c ≤ '7' then
        let (value, rest) :=
          if style ≠ .set ∧ c = '0' then octal 3 0 rest else octal 3 0 (c :: rest)
        let (more, stop) := unescape style fuel rest
        (Char.ofNat (value % 256) :: more, stop)
      else
        let (more, stop) := unescape style fuel rest
        match letterEscape? c with
        | some d => (d :: more, stop)
        | none => (if style = .set then c :: more else '\\' :: c :: more, stop)
    | c :: rest =>
      let (more, stop) := unescape style fuel rest
      (c :: more, stop)

end Tools

end Host

end FishCheck
