import FishCheck.Path

/-!
# Tool runs

The checker and the formatter are programs of their own. An invocation says what to
run; a run ends in a completion with an exit code, whatever the code, or in a failure
when there is no exit code to speak of.
-/

namespace FishCheck

/-- A program to run. -/
structure Invocation where
  program : Text
  args : List Text
  /-- Text for the standard input, which is closed after it; nothing is an empty input. -/
  stdin : Option Text
  /-- Working directory; the caller's own when absent. -/
  cwd : Option Path
  /-- Limit on the run time in milliseconds. -/
  timeout : Option Nat
deriving DecidableEq, Repr

/-- What a program wrote and returned when it came to its own end. -/
structure Completion where
  exitCode : Int
  stdout : Text
  stderr : Text
deriving DecidableEq, Repr

/-- What a program wrote, in bytes, before any decoding. -/
structure Output where
  exitCode : Int
  stdout : Bytes
  stderr : Bytes
deriving DecidableEq, Repr

/-- The completion of an output: its bytes decoded leniently. -/
def Output.decode (o : Output) : Completion :=
  ⟨o.exitCode, Utf8.lenient o.stdout, Utf8.lenient o.stderr⟩

/-- Why a run gives no completion to work with. -/
inductive Failure
  | emptyCommand
  | notFound (program : Text)
  | permissionDenied (program : Text)
  | spawn (program cause : Text)
  | io (program cause : Text)
  | terminated (program : Text)
  | timedOut (program : Text) (limit : Nat)
  | nonZeroExit (completion : Completion)
deriving DecidableEq, Repr

/-- How a run ends. -/
abbrev Outcome := Except Failure Completion

namespace Invocation

/-- The invocation of a command line: its first word is the program. -/
def ofCommand : List Text → Except Failure Invocation
  | [] => .error .emptyCommand
  | program :: args => .ok ⟨program, args, none, none, none⟩

/-- The command line, its words separated by spaces. -/
def display (i : Invocation) : Text := [' '].intercalate (i.program :: i.args)

end Invocation

namespace Failure

/-- The wording of a failure. -/
def message : Failure → Text
  | .emptyCommand => "no executable given"
  | .notFound program => "'" ++ program ++ "' was not found; is it installed and on PATH?"
  | .permissionDenied program => "permission denied when running '" ++ program ++ "'"
  | .spawn program cause => "failed to start '" ++ program ++ "': " ++ cause
  | .io program cause => "I/O error while running '" ++ program ++ "': " ++ cause
  | .terminated program => "'" ++ program ++ "' was terminated before it could exit"
  | .timedOut program limit =>
    "'" ++ program ++ "' timed out after " ++ Text.decimal limit ++ "ms"
  | .nonZeroExit c => "process exited with status " ++ Text.signedDecimal c.exitCode

/-- Whether the program could not be run at all, as against running and reporting
failure by its exit code. -/
def isInfrastructure : Failure → Bool
  | .nonZeroExit _ => false
  | _ => true

end Failure

namespace Completion

/-- Whether the exit code is zero. -/
def succeeded (c : Completion) : Bool := c.exitCode == 0

/-- Demands success: any other exit code becomes a failure. -/
def succeed (c : Completion) : Outcome :=
  if c.succeeded then .ok c else .error (.nonZeroExit c)

end Completion

/-- Runs that demand success, given how the run ended. -/
def Outcome.succeed : Outcome → Outcome
  | .ok c => c.succeed
  | .error f => .error f

end FishCheck
