import FishCheck.Process

/-!
# Settings

Six settings steer the tools. They come in layers: the defaults, a file, and on top
what an editor sends or the command line says. A layer sets some of them and leaves
the others to the layers below.
-/

namespace FishCheck

/-- The settings in effect. -/
structure Settings where
  /-- Program that checks syntax. -/
  checker : Text := "fish"
  /-- Program that formats standard input. -/
  formatter : Text := "fish_indent"
  /-- Arguments of the formatter. -/
  formatterArgs : List Text := []
  /-- Limit per tool run in milliseconds; zero stands for none. -/
  timeout : Nat := 30000
  enableLinting : Bool := true
  enableFormatting : Bool := true
deriving DecidableEq, Repr

/-- Settings that one source gives; what it leaves out comes from below. -/
structure Layer where
  checker : Option Text := none
  formatter : Option Text := none
  formatterArgs : Option (List Text) := none
  timeout : Option Nat := none
  enableLinting : Option Bool := none
  enableFormatting : Option Bool := none
deriving DecidableEq, Repr

namespace Settings

/-- The limit on a tool run, if there is one. -/
def limit (s : Settings) : Option Nat := if 0 < s.timeout then some s.timeout else none

/-- Puts a layer on top of settings. -/
def apply (s : Settings) (l : Layer) : Settings where
  checker := l.checker.getD s.checker
  formatter := l.formatter.getD s.formatter
  formatterArgs := l.formatterArgs.getD s.formatterArgs
  timeout := l.timeout.getD s.timeout
  enableLinting := l.enableLinting.getD s.enableLinting
  enableFormatting := l.enableFormatting.getD s.enableFormatting

end Settings

end FishCheck
