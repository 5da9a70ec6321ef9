import FishCheck.Text.Basic

/-!
# Syntax of shell scripts

Checkers and formatters may be shell scripts. A script is a sequence of commands; a
command names programs by words, and a word is made of literal characters and of
expansions that take their value when the command runs.
-/

namespace FishCheck

namespace Shell

/-- What is done to the value of a parameter. -/
inductive Modifier
  | none
  | length
  /-- Another word if the parameter is unset, or also if it is empty. -/
  | fallback (orEmpty : Bool)
  /-- As `fallback`, and the word becomes the value. -/
  | assign (orEmpty : Bool)
  /-- Another word if the parameter has a value. -/
  | instead (orEmpty : Bool)
  /-- The script ends if the parameter is unset. -/
  | demand (orEmpty : Bool)
  /-- The shortest or longest match of a pattern is cut off at the front. -/
  | cutFront (longest : Bool)
  /-- The shortest or longest match of a pattern is cut off at the end. -/
  | cutBack (longest : Bool)
deriving DecidableEq, Repr

/-- What a redirection does. -/
inductive Direction
  | input
  | output
  | append
  | copy
  /-- The input is the target itself. -/
  | here
deriving DecidableEq, Repr

mutual

/-- A part of a word; quoted parts are neither split nor patterns. -/
inductive Part
  | literal (t : Text) (quoted : Bool)
  | parameter (name : Text) (modifier : Modifier) (word : List Part) (quoted : Bool)
  | command (c : List Command) (quoted : Bool)
  | arithmetic (expression : List Part) (quoted : Bool)

/-- A redirection of one of the standard streams. -/
inductive Redirect
  | mk (stream : Nat) (direction : Direction) (target : List Part)

/-- A command. -/
inductive Command
  | simple (line : Nat) (assignments : List (Text × List Part)) (words : List (List Part))
    (redirects : List Redirect)
  | pipe (commands : List Command)
  | negate (c : Command)
  /-- The script goes on without waiting for it. -/
  | background (c : Command)
  | both (a b : Command)
  | either (a b : Command)
  | group (body : List Command)
  | subshell (body : List Command)
  | choose (branches : List (List Command × List Command)) (otherwise : List Command)
  | loop (negated : Bool) (condition body : List Command)
  | each (name : Text) (words : Option (List (List Part))) (body : List Command)
  | select (subject : List Part) (branches : List (List (List Part) × List Command))
  | define (name : Text) (body : Command)
  | redirected (c : Command) (redirects : List Redirect)

end

/-- A word. -/
abbrev Word := List Part

end Shell

end FishCheck
