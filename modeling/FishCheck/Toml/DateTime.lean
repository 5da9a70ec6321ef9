import FishCheck.Text.Basic

/-!
# Dates and times in TOML

A value may be a date, a time of day, or both with or without an offset from
universal time. No setting takes one, so reading only finds out where such a value
ends and whether it names a day and a time that exist.
-/

namespace FishCheck

namespace Toml

/-- Reads exactly so many digits. -/
def fixedDigits? : Nat → Nat → Text → Option (Nat × Text)
  | 0, value, t => some (value, t)
  | n + 1, value, c :: cs => (Text.digitValue? c).bind fun d => fixedDigits? n (10 * value + d) cs
  | _ + 1, _, [] => none

/-- Reads a given character. -/
def expect? (c : Char) : Text → Option Text
  | [] => none
  | x :: xs => if x = c then some xs else none

/-- Whether a year has a leap day. -/
def isLeap (year : Nat) : Bool := year % 4 == 0 && (year % 100 != 0 || year % 400 == 0)

/-- The days of a month. -/
def daysIn (year month : Nat) : Nat :=
  if month = 2 then (if isLeap year then 29 else 28)
  else if month = 4 ∨ month = 6 ∨ month = 9 ∨ month = 11 then 30
  else 31

/-- Reads a date. -/
def date? (t : Text) : Option Text := do
  let (year, t) ← fixedDigits? 4 0 t
  let t ← expect? '-' t
  let (month, t) ← fixedDigits? 2 0 t
  let t ← expect? '-' t
  let (day, t) ← fixedDigits? 2 0 t
  if 1 ≤ month ∧ month ≤ 12 ∧ 1 ≤ day ∧ day ≤ daysIn year month then some t else none

/-- Reads the fraction of a second, if there is one. -/
def fraction? : Text → Option Text
  | '.' :: t =>
    match t.takeWhile Char.isDigit with
    | [] => none
    | _ => some (t.dropWhile Char.isDigit)
  | t => some t

/-- Reads a time of day; the seconds may be left out. -/
def time? (t : Text) : Option Text := do
  let (hour, t) ← fixedDigits? 2 0 t
  let t ← expect? ':' t
  let (minute, t) ← fixedDigits? 2 0 t
  if 23 < hour ∨ 59 < minute then none
  else match t with
    | ':' :: t => do
      let (second, t) ← fixedDigits? 2 0 t
      if 60 < second then none else fraction? t
    | t => some t

/-- Reads an offset from universal time, if there is one. -/
def offset? (t : Text) : Option Text :=
  match t with
  | 'Z' :: r | 'z' :: r => some r
  | '+' :: r | '-' :: r => do
    let (hour, r) ← fixedDigits? 2 0 r
    let r ← expect? ':' r
    let (minute, r) ← fixedDigits? 2 0 r
    if 23 < hour ∨ 59 < minute then none else some r
  | t => some t

/-- Whether a text starts like a date or a time, so that it can be nothing else. -/
def startsDateTime (t : Text) : Bool :=
  let digits := t.takeWhile Char.isDigit
  match t.dropWhile Char.isDigit with
  | '-' :: _ => digits.length == 4
  | ':' :: _ => digits.length == 2
  | _ => false

/-- Reads a date, a time, or a date with a time. -/
def dateTime? (t : Text) : Option Text :=
  match date? t with
  | none => time? t
  | some rest =>
    match rest with
    | 'T' :: r | 't' :: r => (time? r).bind offset?
    | ' ' :: d :: r =>
      if d.isDigit then (time? (d :: r)).bind offset? else some rest
    | rest => some rest

end Toml

end FishCheck
