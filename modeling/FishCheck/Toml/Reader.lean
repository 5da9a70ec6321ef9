import FishCheck.Toml.Basic
import FishCheck.Toml.DateTime

/-!
# Reading TOML

The reader follows the grammar of TOML 1.1: lines with headers, pairs and comments;
four kinds of strings; integers in four bases; floating-point numbers; dates; arrays
and inline tables. Every function takes the text that is left and gives what it read
with the text left after it, and any departure from the grammar refuses the whole
file.
-/

namespace FishCheck

namespace Toml

/-! ## Blanks, line ends and comments -/

/-- Whether a character is a blank within a line. -/
def isInlineBlank (c : Char) : Bool := c == ' ' || c == '\t'

/-- Drops the blanks within a line. -/
def skipInline (t : Text) : Text := t.dropWhile isInlineBlank

/-- Whether a character may stand in comments and one-line strings. -/
def isPrinted (c : Char) : Bool := c == '\t' || (0x20 ≤ c.toNat && c.toNat != 0x7F)

/-- Reads the end of a line. -/
def lineEnd? : Text → Option Text
  | '\n' :: r => some r
  | '\r' :: '\n' :: r => some r
  | _ => none

/-- Reads a comment if there is one; the line end stays. -/
def comment? (t : Text) : Option Text :=
  match t with
  | '#' :: r =>
    let rest := r.dropWhile isPrinted
    if rest.isEmpty || (lineEnd? rest).isSome then some rest else none
  | t => some t

/-- Reads what may follow a statement: blanks, a comment, and a line end or the end. -/
def finishLine? (t : Text) : Option Text := do
  let rest ← comment? (skipInline t)
  if rest.isEmpty then some [] else lineEnd? rest

/-- Drops blanks, line ends and comments between the parts of an array or an inline
table. -/
def skipFree? : Nat → Text → Option Text
  | 0, _ => none
  | fuel + 1, t =>
    let t := skipInline t
    match t with
    | '#' :: _ => (comment? t).bind (skipFree? fuel)
    | _ => match lineEnd? t with
      | some rest => skipFree? fuel rest
      | none => some t

/-! ## Strings -/

/-- The value of a hexadecimal digit. -/
def hexValue? (c : Char) : Option Nat :=
  if '0' ≤ c ∧ c ≤ '9' then some (c.toNat - 48)
  else if 'a' ≤ c ∧ c ≤ 'f' then some (c.toNat - 87)
  else if 'A' ≤ c ∧ c ≤ 'F' then some (c.toNat - 55)
  else none

/-- Reads exactly so many hexadecimal digits. -/
def fixedHex? : Nat → Nat → Text → Option (Nat × Text)
  | 0, value, t => some (value, t)
  | n + 1, value, c :: cs => (hexValue? c).bind fun d => fixedHex? n (16 * value + d) cs
  | _ + 1, _, [] => none

/-- Reads an escape by code point, with so many digits. -/
def codePoint? (digits : Nat) (t : Text) : Option (Char × Text) := do
  let (n, rest) ← fixedHex? digits 0 t
  if n < 0xD800 ∨ (0xDFFF < n ∧ n < 0x110000) then some (Char.ofNat n, rest) else none

/-- Reads an escape after its backslash. -/
def escape? : Text → Option (Char × Text)
  | 'b' :: r => some ('\x08', r)
  | 't' :: r => some ('\t', r)
  | 'n' :: r => some ('\n', r)
  | 'f' :: r => some ('\x0c', r)
  | 'r' :: r => some ('\r', r)
  | 'e' :: r => some ('\x1b', r)
  | '"' :: r => some ('"', r)
  | '\\' :: r => some ('\\', r)
  | 'x' :: r => codePoint? 2 r
  | 'u' :: r => codePoint? 4 r
  | 'U' :: r => codePoint? 8 r
  | _ => none

/-- Reads a quoted string of one line after its quote; a literal one has no escapes. -/
def oneLine? (quote : Char) (literal : Bool) : Nat → Text → Text → Option (Text × Text)
  | 0, _, _ => none
  | _, _, [] => none
  | fuel + 1, done, c :: cs =>
    if c = quote then some (done.reverse, cs)
    else if c = '\\' ∧ literal = false then
      (escape? cs).bind fun (e, rest) => oneLine? quote literal fuel (e :: done) rest
    else if isPrinted c then oneLine? quote literal fuel (c :: done) cs
    else none

/-- After a backslash at the end of a line: drops blanks and line ends up to the next
text. -/
def continued? (t : Text) : Option Text := do
  let rest ← lineEnd? (skipInline t)
  pure (rest.dropWhile fun c => isInlineBlank c || c == '\n' || c == '\r')

/-- How many quotes stand at the front of a text. -/
def countQuotes (quote : Char) (t : Text) : Nat := (t.takeWhile (· = quote)).length

/-- Reads a string of several lines after its three quotes. Up to two quotes may stand
right before the closing three. -/
def severalLines? (quote : Char) (literal : Bool) : Nat → Text → Text → Option (Text × Text)
  | 0, _, _ => none
  | _, _, [] => none
  | fuel + 1, done, c :: cs =>
    if c = quote then
      let n := countQuotes quote (c :: cs)
      if 6 ≤ n then none
      else if 3 ≤ n then some ((List.replicate (n - 3) quote ++ done).reverse, cs.drop (n - 1))
      else severalLines? quote literal fuel (c :: done) cs
    else if c = '\\' ∧ literal = false then
      match continued? cs with
      | some rest => severalLines? quote literal fuel done rest
      | none => (escape? cs).bind fun (e, rest) => severalLines? quote literal fuel (e :: done) rest
    else if c = '\r' then
      match cs with
      | '\n' :: rest => severalLines? quote literal fuel ('\n' :: '\r' :: done) rest
      | _ => none
    else if c = '\n' ∨ isPrinted c = true then severalLines? quote literal fuel (c :: done) cs
    else none

/-- Reads a string of any kind. -/
def string? (t : Text) : Option (Text × Text) :=
  let fuel := t.length + 1
  let several (quote : Char) (literal : Bool) (r : Text) :=
    severalLines? quote literal fuel [] ((lineEnd? r).getD r)
  match t with
  | '"' :: '"' :: '"' :: r => several '"' false r
  | '\'' :: '\'' :: '\'' :: r => several '\'' true r
  | '"' :: r => oneLine? '"' false fuel [] r
  | '\'' :: r => oneLine? '\'' true fuel [] r
  | _ => none

/-! ## Keys -/

/-- Whether a character may stand in a key without quotes. -/
def isBareKey (c : Char) : Bool := c.isAlphanum || c == '_' || c == '-'

/-- Reads one part of a key; quotes of several lines are no keys. -/
def simpleKey? (t : Text) : Option (Key × Text) :=
  let keyed (name rest : Text) : Key × Text := (⟨name, ⟨t.length, rest.length⟩⟩, rest)
  match t with
  | '"' :: r => (oneLine? '"' false (t.length + 1) [] r).map fun (n, rest) => keyed n rest
  | '\'' :: r => (oneLine? '\'' true (t.length + 1) [] r).map fun (n, rest) => keyed n rest
  | _ =>
    let name := t.takeWhile isBareKey
    if name.isEmpty then none else some (keyed name (t.dropWhile isBareKey))

/-- Reads a key with the parts after its dots. -/
def key? : Nat → Text → Option (List Key × Text)
  | 0, _ => none
  | fuel + 1, t => do
    let (k, rest) ← simpleKey? (skipInline t)
    match skipInline rest with
    | '.' :: more => do
      let (ks, rest) ← key? fuel more
      pure (k :: ks, rest)
    | _ => pure ([k], rest)

/-! ## Numbers -/

/-- Reads digits onto a value, with single underscores between them; `due` tells that a
digit has to come next. -/
def groupedOnto? (base : Nat) (due : Bool) (value : Nat) : Text → Option (Nat × Text)
  | [] => if due then none else some (value, [])
  | c :: cs =>
    match (hexValue? c).filter (· < base) with
    | some d => groupedOnto? base false (base * value + d) cs
    | none =>
      if due then none
      else if c = '_' then groupedOnto? base true value cs
      else some (value, c :: cs)

/-- Reads a non-empty run of digits onto a value, with single underscores between them. -/
def grouped? (base value : Nat) (t : Text) : Option (Nat × Text) := groupedOnto? base true value t

/-- Counts the digits at the front of a text, with underscores between them. -/
def groupedDigits (t : Text) : Nat :=
  ((t.takeWhile fun c => c.isDigit || c == '_').filter Char.isDigit).length

/-- Reads the exponent of a floating-point number after its letter. -/
def exponent? (t : Text) : Option (Int × Text) :=
  match t with
  | '-' :: r => (grouped? 10 0 r).map fun (e, rest) => (-(e : Int), rest)
  | '+' :: r => (grouped? 10 0 r).map fun (e, rest) => ((e : Int), rest)
  | r => (grouped? 10 0 r).map fun (e, rest) => ((e : Int), rest)

/-- Reads a decimal number after its sign: an integer, or a floating-point number when
a point or an exponent follows. -/
def decimal? (negative : Bool) (t : Text) : Option (Scalar × Text) := do
  let (whole, rest) ← grouped? 10 0 t
  if t.head? = some '0' ∧ 1 < groupedDigits t then none
  else
    let (digits, places, rest, pointed) ← (match rest with
      | '.' :: r => (grouped? 10 whole r).map fun (n, after) => (n, groupedDigits r, after, true)
      | r => some (whole, 0, r, false) : Option (Nat × Nat × Text × Bool))
    match rest with
    | c :: r =>
      if c = 'e' ∨ c = 'E' then do
        let (e, rest) ← exponent? r
        pure (.float (.finite ⟨negative, digits, e - places⟩), rest)
      else if pointed then pure (.float (.finite ⟨negative, digits, -(places : Int)⟩), rest)
      else pure (.integer (if negative then -(whole : Int) else whole), rest)
    | [] =>
      if pointed then pure (.float (.finite ⟨negative, digits, -(places : Int)⟩), [])
      else pure (.integer (if negative then -(whole : Int) else whole), [])

/-- Reads a number after its sign. -/
def signed? (negative : Bool) (t : Text) : Option (Scalar × Text) :=
  match t with
  | 'i' :: 'n' :: 'f' :: r => some (.float (.infinite negative), r)
  | 'n' :: 'a' :: 'n' :: r => some (.float .notANumber, r)
  | t => decimal? negative t

/-- Reads an integer of another base after its letter. -/
def based? (base : Nat) (t : Text) : Option (Scalar × Text) :=
  (grouped? base 0 t).map fun (n, rest) => (.integer (Int.ofNat n), rest)

/-- Whether a text goes on with something that cannot follow a value. -/
def runsOn : Text → Bool
  | [] => false
  | c :: _ => isBareKey c || c == '.' || c == '+' || c == ':' || c == '"' || c == '\''

/-- Reads a value without parts. -/
def scalar? (t : Text) : Option (Scalar × Text) := do
  let (value, rest) ← (match t with
    | '"' :: _ | '\'' :: _ => (string? t).map fun (s, rest) => (.string s, rest)
    | 't' :: 'r' :: 'u' :: 'e' :: r => some (.boolean true, r)
    | 'f' :: 'a' :: 'l' :: 's' :: 'e' :: r => some (.boolean false, r)
    | '0' :: 'x' :: r => based? 16 r
    | '0' :: 'o' :: r => based? 8 r
    | '0' :: 'b' :: r => based? 2 r
    | '+' :: r => signed? false r
    | '-' :: r => signed? true r
    | t =>
      if startsDateTime t then (dateTime? t).map fun rest => (.dateTime, rest)
      else signed? false t : Option (Scalar × Text))
  if runsOn rest then none else some (value, rest)

/-! ## Values and documents -/

mutual

/-- Reads a value. -/
def value? : Nat → Text → Option (Node × Text)
  | 0, _ => none
  | fuel + 1, t =>
    match t with
    | '[' :: r => (items? fuel [] r).map fun (items, rest) =>
        (.array ⟨t.length, rest.length⟩ items, rest)
    | '\x7b' :: r => (pairs? fuel [] r).map fun (entries, rest) =>
        (.table ⟨t.length, rest.length⟩ .inline entries, rest)
    | _ => (scalar? t).map fun (value, rest) => (.scalar ⟨t.length, rest.length⟩ value, rest)

/-- Reads the items of an array up to its bracket; the items so far come in reverse. -/
def items? : Nat → List Node → Text → Option (List Node × Text)
  | 0, _, _ => none
  | fuel + 1, done, t =>
    match skipFree? (t.length + 1) t with
    | none => none
    | some (']' :: rest) => some (done.reverse, rest)
    | some t =>
      match value? fuel t with
      | none => none
      | some (item, rest) =>
        match skipFree? (rest.length + 1) rest with
        | some (',' :: rest) => items? fuel (item :: done) rest
        | some (']' :: rest) => some ((item :: done).reverse, rest)
        | _ => none

/-- Reads the pairs of an inline table up to its brace; a comma may stand before it. -/
def pairs? : Nat → Entries → Text → Option (Entries × Text)
  | 0, _, _ => none
  | fuel + 1, done, t =>
    match skipFree? (t.length + 1) t with
    | none => none
    | some ('\x7d' :: rest) => some (done, rest)
    | some t =>
      match key? (t.length + 1) t with
      | none => none
      | some (path, rest) =>
        match skipInline rest with
        | '=' :: rest =>
          match value? fuel (skipInline rest) with
          | none => none
          | some (value, rest) =>
            match addPair path value done with
            | none => none
            | some entries =>
              match skipFree? (rest.length + 1) rest with
              | some (',' :: rest) => pairs? fuel entries rest
              | some ('\x7d' :: rest) => some (entries, rest)
              | _ => none
        | _ => none

end

/-- A document read so far: its entries and the keys of the table that is open. -/
structure Progress where
  entries : Entries
  opened : List Key

/-- Reads a header with its brackets and opens its table. -/
def header? (p : Progress) (t : Text) : Option (Progress × Text) := do
  let (double, r) := match t with
    | '[' :: '[' :: r => (true, r)
    | _ => (false, t.drop 1)
  let (path, rest) ← key? (r.length + 1) r
  let rest ← expect? ']' (skipInline rest)
  let rest ← if double then expect? ']' rest else some rest
  let span : Span := ⟨t.length, rest.length⟩
  let entries ← if double then openElement path span p.entries else openTable path span p.entries
  pure (⟨entries, path⟩, rest)

/-- Reads a pair and adds it to the open table. -/
def pair? (p : Progress) (t : Text) : Option (Progress × Text) := do
  let (path, rest) ← key? (t.length + 1) t
  let rest ← expect? '=' (skipInline rest)
  let rest := skipInline rest
  let (value, rest) ← value? (rest.length + 1) rest
  let entries ← inOpened (addPair path value) p.opened p.entries
  pure (⟨entries, p.opened⟩, rest)

/-- Reads the statements of a document. -/
def statements? : Nat → Progress → Text → Option Entries
  | 0, _, _ => none
  | fuel + 1, p, t =>
    match skipInline t with
    | [] => some p.entries
    | '[' :: r => do
      let (p, rest) ← header? p ('[' :: r)
      statements? fuel p (← finishLine? rest)
    | c :: r =>
      if c = '#' ∨ c = '\n' ∨ c = '\r' then do statements? fuel p (← finishLine? (c :: r))
      else do
        let (p, rest) ← pair? p (c :: r)
        statements? fuel p (← finishLine? rest)

/-- Reads a document; a byte order mark may stand in front. -/
def read? (t : Text) : Option Entries :=
  let body := match t with
    | '\uFEFF' :: r => r
    | t => t
  statements? (t.length + 2) ⟨[], []⟩ body

end Toml

end FishCheck
