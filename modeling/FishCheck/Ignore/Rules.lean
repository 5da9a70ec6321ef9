import FishCheck.Ignore.Glob
import FishCheck.Text.Blank

/-!
# Rules of ignore files

Each line of an ignore file is a rule: a glob for paths below the directory of the
file, which are ignored, or kept if the line starts with an exclamation mark. Of all
rules that match a path the last one decides.

Main results:

- Theorem `verdict_append`: later rules go before earlier ones.
-/

namespace FishCheck

namespace Ignore

/-- What rules say about a path that they match. -/
inductive Verdict
  | ignored
  | kept
deriving DecidableEq, Repr

/-- A rule. -/
structure Rule where
  glob : Glob
  verdict : Verdict
  /-- Whether only directories are meant. -/
  onlyDirectories : Bool
deriving DecidableEq, Repr

/-! ## Matching -/

/-- Whether a rule is about a path below its directory. -/
def Rule.applies (r : Rule) (path : Bytes) (isDirectory : Bool) : Bool :=
  (isDirectory || !r.onlyDirectories) && r.glob.isMatch path

/-- What rules say about a path, if they say anything. -/
def verdict? (rules : List Rule) (path : Bytes) (isDirectory : Bool) : Option Verdict :=
  (rules.reverse.find? fun r => r.applies path isDirectory).map (·.verdict)

/-- Later rules go before earlier ones. -/
theorem verdict_append (first second : List Rule) (path : Bytes) (isDirectory : Bool) :
    verdict? (first ++ second) path isDirectory =
      (verdict? second path isDirectory <|> verdict? first path isDirectory) := by
  unfold verdict?
  rw [List.reverse_append, List.find?_append]
  cases second.reverse.find? fun r => r.applies path isDirectory <;> simp

/-! ## Reading -/

/-- Removes blanks at the end of a line, unless the last one is escaped. -/
def trimLine (line : Text) : Text :=
  if "\\ ".toList.isSuffixOf line then line
  else (line.reverse.dropWhile Text.isBlank).reverse

/-- Removes the slash that restricts a rule to directories, and a backslash before it. -/
def dropSlash (line : Text) : Text :=
  let line := line.dropLast
  if line.getLast? = some '\\' then line.dropLast else line

/-- The glob that the body of a rule spells: without a slash it matches at any depth, and
everything below a directory does not include the directory. -/
def globText (anchored : Bool) (body : Text) : Text :=
  let free := !anchored && !body.contains '/' && body != "**".toList
  let glob := if free then "**/".toList ++ body else body
  if "/**".toList.isSuffixOf glob then glob ++ "/*".toList else glob

/-- Reads the body of a rule after its marks. -/
def readBody (verdict : Verdict) (anchored : Bool) (body : Text) : Option Rule :=
  let onlyDirectories := body.getLast? == some '/'
  let body := if onlyDirectories then dropSlash body else body
  (Glob.read? (globText anchored body)).map fun glob => ⟨glob, verdict, onlyDirectories⟩

/-- Reads a line; nothing when it is blank, a comment or malformed. -/
def readLine (line : Text) : Option Rule :=
  if line.head? = some '#' then none
  else
    let line := trimLine line
    match line with
    | [] => none
    | '\\' :: c :: rest =>
      if c = '!' ∨ c = '#' then readBody .ignored false (c :: rest)
      else readBody .ignored false line
    | '!' :: '/' :: rest => readBody .kept true rest
    | '!' :: rest => readBody .kept false rest
    | '/' :: rest => readBody .ignored true rest
    | _ => readBody .ignored false line

/-- Cuts bytes at line feeds. -/
def splitLines : Bytes → List Bytes
  | [] => [[]]
  | b :: bs =>
    if b = 0x0A then [] :: splitLines bs
    else match splitLines bs with
      | l :: ls => (b :: l) :: ls
      | [] => [[b]]

/-- The mark that may stand at the start of a text file. -/
def byteOrderMark : Char := '\uFEFF'

/-- The lines of a file up to the first one that is no text. -/
def textLines (content : Bytes) : List Text :=
  let lines := ((splitLines content).map Utf8.strict?).takeWhile Option.isSome
  match lines.filterMap id with
  | [] => []
  | first :: rest => first.dropWhile (· == byteOrderMark) :: rest

/-- The rules of an ignore file. -/
def ofFile (content : Bytes) : List Rule :=
  (textLines content).filterMap fun line => readLine (Text.dropReturn line)

end Ignore

end FishCheck
