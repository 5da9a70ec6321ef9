import FishCheck.Host.Tools.Escape

/-!
# Tools that print their arguments

Words are joined by spaces, or written under a format whose conversions take the
arguments one by one; a format is written again until no argument is left.
-/

namespace FishCheck

namespace Host

namespace Tools

/-- Words joined by spaces. -/
def spaced (words : List Text) : Text := [' '].intercalate words

/-- The shell's own echo, which always undoes escapes. -/
def shellEcho (words : List Text) : Performance :=
  let (newline, words) := match words with
    | ['-', 'n'] :: rest => (false, rest)
    | _ => (true, words)
  let t := spaced words
  let (out, stop) := unescape .shell t.length t
  { out := if newline && !stop then out ++ ['\n'] else out }

/-- The echo that is a program of its own, which undoes escapes when told to. -/
def echo (words : List Text) : Performance :=
  let isFlag (w : Text) : Bool := match w with
    | '-' :: c :: cs => (c :: cs).all fun c => c == 'n' || c == 'e' || c == 'E'
    | _ => false
  let flags := (words.takeWhile isFlag).flatten
  let escapes := (flags.reverse.find? fun c => c == 'e' || c == 'E') == some 'e'
  let t := spaced (words.dropWhile isFlag)
  let (out, stop) := if escapes then unescape .echo t.length t else (t, false)
  { out := if flags.contains 'n' || stop then out else out ++ ['\n'] }

/-- Pads a text to a width. -/
def pad (left zero : Bool) (width : Nat) (t : Text) : Text :=
  let fill := List.replicate (width - t.length) (if zero && !left then '0' else ' ')
  if left then t ++ fill else fill ++ t

/-- The digits of a number in a base. -/
def inBase (base : Nat) (upper : Bool) (n : Nat) : Text :=
  let digits := Nat.toDigits base n
  if upper then digits.map Char.toUpper else digits

/-- The number at the front of an operand, the way it is written, and what comes after
it. -/
def leadingNumber (t : Text) : Nat × Text × Text :=
  match t with
  | '0' :: x :: c :: rest =>
    if (x = 'x' ∨ x = 'X') ∧ (hexDigit? c).isSome then
      let (n, after) := digitsIn 16 0 (c :: rest)
      (n, ['0'], after)
    else
      let (n, after) := digitsIn 8 0 t
      (n, ['0'], after)
  | '0' :: _ =>
    let (n, after) := digitsIn 8 0 t
    (n, ['0'], after)
  | _ =>
    let (n, after) := digitsIn 10 0 t
    (n, t.take (t.length - after.length), after)

/-- Reads an integer operand of a conversion, with what is wrong with it. -/
def integer (t : Text) : Int × Option Text :=
  match t with
  | [] => (0, none)
  | '\'' :: rest | '"' :: rest => (Int.ofNat ((rest.head?.map Char.toNat).getD 0), none)
  | _ =>
    let body := t.dropWhile isBlank
    let (negative, body) := match body with
      | '-' :: r => (true, r)
      | '+' :: r => (false, r)
      | r => (false, r)
    let (n, digits, after) := leadingNumber body
    let value := if negative then -(Int.ofNat n) else Int.ofNat n
    if digits.isEmpty then (0, some (t ++ ": expected numeric value"))
    else if after.isEmpty then (value, none)
    else (value, some (t ++ ": not completely converted"))

/-- How a conversion is laid out. -/
structure Layout where
  flags : Text := []
  width : Nat := 0
  precision : Option Nat := none

/-- A number laid out, given its sign and digits. -/
def Layout.number (l : Layout) (sign digits : Text) : Text :=
  let digits := pad false true (l.precision.getD 0) digits
  let left := l.flags.contains '-'
  if l.flags.contains '0' && !left && l.precision.isNone then
    sign ++ pad false true (l.width - sign.length) digits
  else pad left false l.width (sign ++ digits)

/-- A text laid out. -/
def Layout.text (l : Layout) (t : Text) : Text :=
  pad (l.flags.contains '-') false l.width (match l.precision with
    | some n => t.take n
    | none => t)

/-- Writes one conversion: the text, what is wrong with the argument, and whether the
output ends here; nothing if there is no such conversion. -/
def convert (kind : Char) (l : Layout) (arg : Text) : Option (Text × Option Text × Bool) :=
  let (n, wrong) := integer arg
  let unsigned := (n % Int.pow 2 64).toNat
  let sign : Text :=
    if n < 0 then ['-'] else if l.flags.contains '+' then ['+']
    else if l.flags.contains ' ' then [' '] else []
  match kind with
  | 's' => some (l.text arg, none, false)
  | 'b' =>
    let (t, stop) := unescape .shell arg.length arg
    some (l.text t, none, stop)
  | 'c' => some (pad (l.flags.contains '-') false l.width [arg.headD '\x00'], none, false)
  | 'd' | 'i' => some (l.number sign (Text.decimal n.natAbs), wrong, false)
  | 'u' => some (l.number [] (Text.decimal unsigned), wrong, false)
  | 'x' => some (l.number [] (inBase 16 false unsigned), wrong, false)
  | 'X' => some (l.number [] (inBase 16 true unsigned), wrong, false)
  | 'o' => some (l.number [] (inBase 8 false unsigned), wrong, false)
  | _ => none

/-- What writing a format once gives. -/
structure Formatted where
  out : Text := []
  /-- The arguments that are left. -/
  args : List Text
  /-- Whether an argument was asked for. -/
  used : Bool := false
  /-- Whether the output ends here. -/
  stop : Bool := false
  complaints : List Text := []
  /-- The conversion that does not exist, with what is before it. -/
  unknown? : Option Text := none

/-- Puts text and complaints in front of what comes after them. -/
def Formatted.after (out : Text) (complaint : Option Text) (used : Bool) (f : Formatted) :
    Formatted :=
  { f with
    out := out ++ f.out
    used := used || f.used
    complaints := complaint.toList ++ f.complaints }

/-- A width or precision at the front of a format, which may come from an argument. -/
def layoutNumber (t : Text) (args : List Text) : Text × Text × List Text :=
  match t with
  | '*' :: rest => (Text.decimal (integer (args.headD [])).1.natAbs, rest, args.drop 1)
  | _ => (t.takeWhile Char.isDigit, t.dropWhile Char.isDigit, args)

/-- Writes a format once. -/
def formatOnce : Nat → Text → List Text → Formatted
  | 0, _, args => { args }
  | fuel + 1, t, args =>
    match t with
    | [] => { args }
    | '%' :: '%' :: rest => (formatOnce fuel rest args).after ['%'] none false
    | '%' :: rest =>
      let flags := rest.takeWhile fun c => "-0+ #".toList.contains c
      let (width, rest, args) := layoutNumber (rest.drop flags.length) args
      let (precision, rest, args) := match rest with
        | '.' :: r =>
          let (p, r, args) := layoutNumber r args
          (some (number p), r, args)
        | r => (none, r, args)
      let written := t.take (t.length - rest.length + 1)
      match rest.head?.bind fun kind =>
        convert kind { flags, width := number width, precision } (args.headD []) with
      | none => { args, unknown? := some written }
      | some (out, wrong, true) =>
        { out, args := args.drop 1, used := true, stop := true, complaints := wrong.toList }
      | some (out, wrong, false) =>
        (formatOnce fuel (rest.drop 1) (args.drop 1)).after out wrong true
    | '\\' :: c :: rest =>
      let (value, rest) :=
        if '0' ≤ c ∧ c ≤ '7' then
          let (n, rest) := octal 3 0 (c :: rest)
          ([Char.ofNat (n % 256)], rest)
        else match letterEscape? c with
          | some d => ([d], rest)
          | none => (['\\', c], rest)
      (formatOnce fuel rest args).after value none false
    | c :: rest => (formatOnce fuel rest args).after [c] none false

/-- Writes a format as often as it takes to use up the arguments. -/
def formatAll : Nat → Text → List Text → Formatted
  | 0, _, args => { args }
  | fuel + 1, format, args =>
    let once := formatOnce format.length format args
    if once.args.isEmpty || !once.used || once.stop || once.unknown?.isSome then once
    else
      let more := formatAll fuel format once.args
      { more with out := once.out ++ more.out, complaints := once.complaints ++ more.complaints }

/-- Writes its arguments under a format. -/
def printf (words : List Text) : Performance :=
  let words := if words.head? = some ['-', '-'] then words.drop 1 else words
  match words with
  | [] => { complaints := ["printf: usage: printf format [arg ...]"], status := 2 }
  | format :: args =>
    let f := formatAll (args.length + 1) format args
    let complaints : List Text := f.complaints.map ("printf: ".toList ++ ·)
    match f.unknown? with
    | some t =>
      { out := f.out, status := 2
        complaints := complaints ++ ["printf: ".toList ++ t ++ ": invalid directive".toList] }
    | none => { out := f.out, complaints, status := if complaints.isEmpty then 0 else 1 }

end Tools

end Host

end FishCheck
