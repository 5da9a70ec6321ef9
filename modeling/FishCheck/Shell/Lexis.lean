import FishCheck.Shell.Syntax

/-!
# The lexical level of scripts

Which characters end a word or have a meaning inside one, what is skipped between words,
and how names, quotations and the texts of here-documents are delimited. A reader takes
what it reads off the front of the text.
-/

namespace FishCheck

namespace Shell

/-- Why a script cannot be read further. -/
inductive Problem
  | unexpected (token : Text) (expected? : Option Text)
  | endOfFile (expected? : Option Text)
  | unterminatedQuote
  | unterminatedBackQuote
  | missingBrace
  | badLoopVariable
  | badSubstitution
deriving DecidableEq, Repr

/-- The wording of what was expected instead. -/
def expectation : Option Text → Text
  | some e => " (expecting \"" ++ e ++ "\")"
  | none => []

/-- The wording of a problem. -/
def Problem.message : Problem → Text
  | .unexpected token e => "Syntax error: " ++ token ++ " unexpected" ++ expectation e
  | .endOfFile e => "Syntax error: end of file unexpected" ++ expectation e
  | .unterminatedQuote => "Syntax error: Unterminated quoted string"
  | .unterminatedBackQuote => "Syntax error: EOF in backquote substitution"
  | .missingBrace => "Syntax error: Missing '\x7d'"
  | .badLoopVariable => "Syntax error: Bad for loop variable"
  | .badSubstitution => "Bad substitution"

/-- A reader takes what it reads off the front of the text. -/
abbrev Reader := StateT Text (Except Problem)

namespace Reader

/-! ## Characters -/

/-- Whether a character ends a word. -/
def isMeta (c : Char) : Bool := " \t\n;&|<>()".toList.contains c

/-- Whether a character has a meaning inside a word. -/
def isSpecial (c : Char) : Bool := "\\'\"$\x60".toList.contains c

/-- Whether a character may start a name. -/
def isNameStart (c : Char) : Bool := c.isAlpha || c == '_'

/-- Whether a character may be in a name. -/
def isNameChar (c : Char) : Bool := isNameStart c || c.isDigit

/-- The parameters whose names are marks. -/
def isMark (c : Char) : Bool := "@*#?-$!".toList.contains c

/-- Drops blanks, joined lines and a comment; fuel is the length of the text. -/
def dropBlanks : Nat → Text → Text
  | 0, t => t
  | fuel + 1, t =>
    match t with
    | ' ' :: r | '\t' :: r | '\\' :: '\n' :: r => dropBlanks fuel r
    | '#' :: r => r.dropWhile (· ≠ '\n')
    | t => t

/-- Skips blanks and a comment. -/
def skipBlanks : Reader Unit := modify fun t => dropBlanks (t.length + 1) t

/-- Drops blanks, comments and line ends. -/
def dropLines : Nat → Text → Text
  | 0, t => t
  | fuel + 1, t =>
    match dropBlanks (t.length + 1) t with
    | '\n' :: r => dropLines fuel r
    | t => t

/-- Skips blanks, comments and line ends. -/
def skipLines : Reader Unit := modify fun t => dropLines (t.length + 1) t

/-- Takes an operator if it is at the front. -/
def accept (op : String) : Reader Bool := fun t =>
  match op.toList.isPrefixOf? t with
  | some rest => .ok (true, rest)
  | none => .ok (false, t)

/-- The words that are commands of the language. -/
def reserved : List Text :=
  ["!", "\x7b", "\x7d", "case", "do", "done", "elif", "else", "esac", "fi", "for", "if", "in",
    "then", "until", "while"]

/-- What is at the front, for a message. -/
def token (t : Text) : Text :=
  let quoted (u : Text) : Text := '"' :: u ++ ['"']
  match t with
  | ';' :: ';' :: _ => quoted ";;"
  | '&' :: '&' :: _ => quoted "&&"
  | '|' :: '|' :: _ => quoted "||"
  | '\n' :: _ => "newline"
  | '<' :: _ | '>' :: _ => "redirection"
  | c :: _ =>
    let word := t.takeWhile (!isMeta ·)
    if isMeta c then quoted [c] else if reserved.contains word then quoted word else "word"
  | [] => []

/-- Fails on what is at the front. -/
def unexpected (expected? : Option Text) : Reader α := fun t =>
  if t.isEmpty then .error (.endOfFile expected?) else .error (.unexpected (token t) expected?)

/-- The unquoted word at the front, as far as it can be a reserved one. -/
def peekWord : Reader Text := fun t => .ok (t.takeWhile (!isMeta ·), t)

/-- Takes a reserved word if it is at the front. -/
def acceptWord (word : String) : Reader Bool := do
  if (← peekWord) = word.toList then accept word else pure false

/-- Takes a reserved word that has to be there. -/
def expectWord (word : String) : Reader Unit := do
  skipLines
  unless ← acceptWord word do unexpected (some word)

/-- The reserved words that end a list of commands. -/
def closers : List Text := ["then", "else", "elif", "fi", "do", "done", "esac", "\x7d"]

/-- Whether a list of commands ends here. -/
def atEnd : Reader Bool := fun t =>
  let closes := match t with
    | [] | ')' :: _ | ';' :: ';' :: _ => true
    | _ => closers.contains (t.takeWhile (!isMeta ·))
  .ok (closes, t)

/-! ## Words -/

/-- Where a part of a word stands. -/
inductive Mode
  | plain
  | double
  | brace (quoted : Bool)
  /-- Up to the end of the text. -/
  | all
deriving DecidableEq

/-- Whether literal characters count as quoted in a mode. -/
def Mode.quoted : Mode → Bool
  | .plain => false
  | .double | .all => true
  | .brace q => q

/-- Whether a character ends a word in a mode. -/
def Mode.stops (c : Char) : Mode → Bool
  | .plain => isMeta c
  | .double => c == '"'
  | .brace _ => c == '}'
  | .all => false

/-- Puts a literal in front of parts. -/
def literal (t : Text) (quoted : Bool) (rest : Word) : Word :=
  match rest with
  | .literal u q :: more =>
    if q = quoted then .literal (t ++ u) q :: more else .literal t quoted :: rest
  | _ => .literal t quoted :: rest

/-- The stretch up to the closing parentheses of an arithmetic expansion. -/
def arithmeticEnd (depth : Nat) (taken : Text) : Text → Option (Text × Text)
  | ')' :: ')' :: rest =>
    if depth = 0 then some (taken.reverse, rest)
    else arithmeticEnd (depth - 1) (')' :: taken) (')' :: rest)
  | ')' :: rest => arithmeticEnd (depth - 1) (')' :: taken) rest
  | '(' :: rest => arithmeticEnd (depth + 1) ('(' :: taken) rest
  | c :: rest => arithmeticEnd depth (c :: taken) rest
  | [] => none

/-- The stretch up to the closing back quote. -/
def backQuoteEnd (taken : Text) : Text → Option (Text × Text)
  | '\x60' :: rest => some (taken.reverse, rest)
  | '\\' :: c :: rest =>
    if c = '\x60' ∨ c = '\\' ∨ c = '$' then backQuoteEnd (c :: taken) rest
    else backQuoteEnd (c :: '\\' :: taken) rest
  | c :: rest => backQuoteEnd (c :: taken) rest
  | [] => none

/-- Takes the modifier of a parameter. -/
def modifier : Reader Modifier := fun t =>
  match t with
  | '#' :: '#' :: r => .ok (.cutFront true, r)
  | '#' :: r => .ok (.cutFront false, r)
  | '%' :: '%' :: r => .ok (.cutBack true, r)
  | '%' :: r => .ok (.cutBack false, r)
  | ':' :: '-' :: r => .ok (.fallback true, r)
  | '-' :: r => .ok (.fallback false, r)
  | ':' :: '=' :: r => .ok (.assign true, r)
  | '=' :: r => .ok (.assign false, r)
  | ':' :: '+' :: r => .ok (.instead true, r)
  | '+' :: r => .ok (.instead false, r)
  | ':' :: '?' :: r => .ok (.demand true, r)
  | '?' :: r => .ok (.demand false, r)
  | '}' :: _ => .ok (.none, t)
  | _ => .error .badSubstitution

/-- Takes the name of a parameter inside braces. -/
def parameterName : Reader Text := fun t =>
  match t with
  | [] => .error .badSubstitution
  | c :: rest =>
    if isNameStart c then .ok (t.takeWhile isNameChar, t.dropWhile isNameChar)
    else if c.isDigit then .ok (t.takeWhile Char.isDigit, t.dropWhile Char.isDigit)
    else if isMark c then .ok ([c], rest)
    else .error .badSubstitution

/-- Takes one character that has to be there. -/
def expectChar (c : Char) (p : Problem) : Reader Unit := fun t =>
  match t with
  | d :: rest => if d = c then .ok ((), rest) else .error p
  | [] => .error p

/-- The name at the front of an assignment. -/
def assignmentName? (t : Text) : Option (Text × Text) :=
  match t.takeWhile isNameChar, t.dropWhile isNameChar with
  | c :: cs, '=' :: rest => if isNameStart c then some (c :: cs, rest) else none
  | _, _ => none

/-- The stream and direction of a redirection at the front. -/
def redirection? (t : Text) : Option (Nat × Direction × Text) :=
  let digits := t.takeWhile Char.isDigit
  let stream (default : Nat) := (Text.natural? digits).getD default
  match t.dropWhile Char.isDigit with
  | '>' :: '>' :: r => some (stream 1, .append, r)
  | '>' :: '&' :: r => some (stream 1, .copy, r)
  | '>' :: '|' :: r => some (stream 1, .output, r)
  | '>' :: r => some (stream 1, .output, r)
  | '<' :: '&' :: r => some (stream 0, .copy, r)
  | '<' :: '<' :: r => some (stream 0, .here, r)
  | '<' :: r => some (stream 0, .input, r)
  | _ => none

/-- The delimiter at the front of the text and whether it is quoted. -/
def delimiter (t : Text) : Text × Bool × Text :=
  let t := t.dropWhile fun c => c == ' ' || c == '\t'
  let word := t.takeWhile (!isMeta ·)
  let mark (c : Char) : Bool := c == '\'' || c == '"' || c == '\\'
  (word.filter (!mark ·), word.any mark, t.drop word.length)

/-- The lines up to a delimiter, and what is after it; fuel is the length of the text. -/
def linesUpTo (stripTabs : Bool) (ending : Text) : Nat → Text → Text × Text
  | 0, t => (t, [])
  | fuel + 1, t =>
    if t.isEmpty then ([], [])
    else
      let line := t.takeWhile (· ≠ '\n')
      let rest := t.drop line.length
      let line := if stripTabs then line.dropWhile (· == '\t') else line
      if line = ending then ([], rest.drop 1)
      else
        let (more, after) := linesUpTo stripTabs ending fuel (rest.drop 1)
        (line ++ rest.take 1 ++ more, after)

/-- What a redirection from the script itself takes, whether it is literal, and the text
without it: it starts in the next line and ends at its delimiter. -/
def hereText (t : Text) : Text × Bool × Text :=
  let (stripTabs, t) := match t with
    | '-' :: r => (true, r)
    | r => (false, r)
  let (ending, literal, t) := delimiter t
  let line := t.takeWhile (· ≠ '\n')
  let after := t.drop line.length
  let (body, after') := linesUpTo stripTabs ending t.length (after.drop 1)
  (body, literal, line ++ after.take 1 ++ after')

/-- The number of the line that the front of the text is on. -/
def lineOf (whole : Text) : Reader Nat := fun t => .ok (whole.count '\n' - t.count '\n' + 1, t)

end Reader

end Shell

end FishCheck
