import FishCheck.Url.Percent

/-!
# Hosts of URLs

The host of a URL names a machine: a domain, a numeric address, or, for schemes that
the standard does not treat specially, an uninterpreted name. Domains are read in
lower case after undoing escapes; a domain whose last label is a number has to be a
four-part address and is written as one. Domains are ASCII here; a host beyond ASCII
is refused.
-/

namespace FishCheck

namespace UrlHost

/-- Characters that no host may hold. -/
def isForbidden (c : Char) : Bool :=
  c.toNat ≤ 0x20 && (c == '\x00' || c == '\t' || c == '\n' || c == '\r' || c == ' ') ||
    "#/:<>?@[\\]^|".toList.contains c

/-- Characters that no domain may hold: controls and the percent sign as well. -/
def isForbiddenInDomain (c : Char) : Bool :=
  isForbidden c || c.toNat ≤ 0x1F || c == '%' || c.toNat == 0x7F

/-! ## Numeric addresses -/

/-- Cuts a text at every occurrence of a character. -/
def splitAt (separator : Char) : Text → List Text
  | [] => [[]]
  | c :: cs =>
    if c = separator then [] :: splitAt separator cs
    else Text.consPiece c (splitAt separator cs)

/-- Reads digits of a base onto a value read so far. -/
def readBase (base : Nat) (value : Nat) : Text → Option Nat
  | [] => some value
  | c :: cs => (Percent.digitValue? c).bind fun d =>
    if d < base then readBase base (base * value + d) cs else none

/-- One part of an address: decimal, octal after `0`, hexadecimal after `0x`. -/
def addressPart? (part : Text) : Option Nat :=
  match part with
  | [] => none
  | '0' :: 'x' :: digits => readBase 16 0 digits
  | '0' :: d :: digits => readBase 8 0 (d :: digits)
  | digits => readBase 10 0 digits

/-- The labels of a domain, without an empty one after a trailing dot. -/
def labels (domain : Text) : List Text :=
  let parts := splitAt '.' domain
  match parts.reverse with
  | [] :: rest => if rest.isEmpty then parts else rest.reverse
  | _ => parts

/-- Whether the last label of a domain is a number, so that it must be an address. -/
def endsInNumber (domain : Text) : Bool :=
  match (labels domain).getLast? with
  | some last => !last.isEmpty && last.all Char.isDigit ||
      match last with
      | '0' :: 'x' :: digits => (readBase 16 0 digits).isSome
      | _ => false
  | none => false

/-- Adds up the parts of an address: all but the last are bytes, the last fills the rest. -/
def addressValue? : Nat → List Nat → Option Nat
  | _, [] => none
  | weight, [last] => if last < 256 ^ weight then some last else none
  | weight, part :: parts =>
    if part < 256 then (addressValue? (weight - 1) parts).map (part * 256 ^ (weight - 1) + ·)
    else none

/-- An address as four decimal bytes. -/
def writeAddress (value : Nat) : Text :=
  ['.'].intercalate
    ([value / 16777216 % 256, value / 65536 % 256, value / 256 % 256, value % 256].map Text.decimal)

/-- The four-byte address that a domain spells. -/
def address? (domain : Text) : Option Text :=
  let parts := labels domain
  if parts.length ≤ 4 then
    (parts.mapM addressPart?).bind fun values => (addressValue? 4 values).map writeAddress
  else none

/-! ## Reading a host -/

/-- A byte in decimal, without leading zeros. -/
def addressByte? (t : Text) : Option Nat :=
  (Text.natural? t).bind fun n => if n < 256 ∧ Text.decimal n = t then some n else none

/-- The groups of an address that are written between its colons; four bytes at the end
make two groups. -/
def groups? : List Text → Option (List Nat)
  | [] => some []
  | part :: parts =>
    if part.contains '.' then
      match parts, (splitAt '.' part).mapM addressByte? with
      | [], some [a, b, c, d] => some [256 * a + b, 256 * c + d]
      | _, _ => none
    else if part.isEmpty || 4 < part.length then none
    else
      match readBase 16 0 part, groups? parts with
      | some g, some gs => some (g :: gs)
      | _, _ => none

/-- The groups of a text; an empty text has none. -/
def groupsOf? (t : Text) : Option (List Nat) :=
  if t.isEmpty then some [] else groups? (splitAt ':' t)

/-- Cuts a text at the first double colon. -/
def splitDouble? : Text → Option (Text × Text)
  | ':' :: ':' :: rest => some ([], rest)
  | c :: cs => (splitDouble? cs).map fun (a, b) => (c :: a, b)
  | [] => none

/-- The eight groups of a long address; a double colon stands for one zero or more. -/
def longAddress? (t : Text) : Option (List Nat) :=
  match splitDouble? t with
  | none => (groupsOf? t).bind fun gs => if gs.length = 8 then some gs else none
  | some (front, back) =>
    match groupsOf? front, groupsOf? back with
    | some a, some b =>
      if front.contains '.' || 8 ≤ a.length + b.length then none
      else some (a ++ List.replicate (8 - a.length - b.length) 0 ++ b)
    | _, _ => none

/-- The number of zeros at the front. -/
def zeros (gs : List Nat) : Nat := (gs.takeWhile (· == 0)).length

/-- The length of the longest run of zeros. -/
def longestRun : List Nat → Nat
  | [] => 0
  | g :: gs => max (zeros (g :: gs)) (longestRun gs)

/-- A group in hexadecimal. -/
def writeGroup (g : Nat) : Text := Nat.toDigits 16 g

/-- Cuts groups around the first run of zeros of a length. -/
def cutRun (length : Nat) : List Nat → List Nat × List Nat
  | [] => ([], [])
  | g :: gs =>
    if zeros (g :: gs) = length then ([], (g :: gs).drop length)
    else
      let (a, b) := cutRun length gs
      (g :: a, b)

/-- A long address as text: the first of the longest runs of zeros, if it is longer than
one, is a double colon. -/
def writeLong (gs : List Nat) : Text :=
  let join (gs : List Nat) : Text := [':'].intercalate (gs.map writeGroup)
  if longestRun gs ≤ 1 then join gs
  else
    let (a, b) := cutRun (longestRun gs) gs
    join a ++ "::" ++ join b

/-- A bracketed address. -/
def bracketed? (t : Text) : Option Text :=
  if t.getLast? = some ']' then
    (longAddress? (t.dropLast.drop 1)).map fun gs => '[' :: writeLong gs ++ [']']
  else none

/-- The host of a special scheme. -/
def domain? (t : Text) : Option Text :=
  if t.head? = some '[' then bracketed? t
  else
    let domain := (Utf8.lenient (Percent.decode t)).map Char.toLower
    if domain.isEmpty || domain.any (fun c => isForbiddenInDomain c || 0x80 ≤ c.toNat) then none
    else if endsInNumber domain then address? domain
    else some domain

/-- The host of any other scheme. -/
def uninterpreted? (t : Text) : Option Text :=
  if t.head? = some '[' then bracketed? t
  else if t.any isForbidden then none
  else some (Percent.encodeText Percent.controls t)

end UrlHost

end FishCheck
