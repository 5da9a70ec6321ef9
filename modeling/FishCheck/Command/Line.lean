import FishCheck.Command.Arguments
import FishCheck.Command.Check
import FishCheck.Command.Formatting
import FishCheck.Command.Serve
import FishCheck.Version

/-!
# The command line

The program as a whole: from the words of a command line, the host it runs on and its
standard input to the host afterwards and a report.
-/

namespace FishCheck

namespace CommandLine

/-- The name and version of this program. -/
def banner : Text := Command.line (Wire.serverName ++ " " ++ Wire.serverVersion)

/-- What is printed when a command line does not fit. -/
def usage : Text := Command.line "error: invalid arguments"

/-- Prints the version of this program and of the checker. -/
def version (exec : Executor) (p : Palette) (h : Host) (o : Overrides) : Host × Report :=
  let failed (message : Text) : Report := { Command.failed p message with stdout := banner }
  match Command.resolve h o with
  | .error e => (h, failed e.message)
  | .ok s =>
    let (h, result) := exec h (Version.invocation s none)
    match Version.conclude s (result.map Output.decode) with
    | .ok v =>
      (h, { exitCode := Command.success
            stdout := banner ++ Command.line (v.toText ++ " (" ++ s.checker ++ ")") })
    | .error f => (h, failed f.message)

/-- The overrides among the shared options. -/
def overrides (o : SharedOptions) : Overrides :=
  ⟨o.config, o.checker, o.formatter, o.timeout⟩

/-- Carries a request out. -/
def perform (exec : Executor) (p : Palette) (h : Host) (o : SharedOptions) (stdin : Bytes) :
    Request → Host × Report
  | .check paths quiet => Check.run exec p h (overrides o) paths quiet
  | .format paths check fromInput =>
    Formatting.run exec p h (overrides o) paths check fromInput stdin
  | .serve port _ => Serve.run exec p h o.config port stdin
  | .version => version exec p h (overrides o)
  | .ownVersion => (h, { exitCode := Command.success, stdout := banner })
  | .help => (h, { exitCode := Command.success })

/-- Runs a command line. -/
def run (exec : Executor) (h : Host) (stdin : Bytes) (args : List Text) : Host × Report :=
  match Arguments.parse args with
  | none => (h, { exitCode := Command.toolError, stderr := usage })
  | some (o, request) =>
    perform exec (Palette.ofEnvironment (h.lookup "CLICOLOR_FORCE")) h o stdin request

end CommandLine

end FishCheck
