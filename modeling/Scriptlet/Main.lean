import Scriptlet.Command.Basic

/-!
# The program

Reads the file that the arguments name, and prints the report of `Scriptlet.Command` on it.
-/

open Scriptlet

/-- What an error of the system says about a file. Opening a file names it in the error, and reading
from it does not. The only fault of a name itself is its length. -/
def Scriptlet.ReadFailure.ofError : IO.Error → ReadFailure
  | .noFileOrDirectory .. => .missing
  | .inappropriateType none .. => .isFolder
  | .inappropriateType (some _) .. => .notFolder
  | .permissionDenied .. => .forbidden
  | .invalidArgument (some _) .. => .tooLong
  | error => .other (toString error)

/-- Read a file of the system as text. -/
def Scriptlet.Command.readSource (path : String) : IO (Except ReadFailure String) := do
  match ← (IO.FS.readBinFile path).toBaseIO with
  | .error error => return .error (.ofError error)
  | .ok content =>
      match String.fromUTF8? content with
      | some text => return .ok text
      | none => return .error .notText

/-- The command line. -/
def main (arguments : List String) : IO UInt32 := do
  match Command.Invocation.ofArguments? arguments with
  | none =>
      IO.eprint (Command.Report.usage.notice.text "")
      return Command.Report.usage.status
  | some invocation =>
      let source ← Command.readSource invocation.path
      let begun ← IO.monoNanosNow
      let report := invocation.report source
      IO.print report.output
      let ended ← IO.monoNanosNow
      IO.eprint (report.notice.text (Elapsed.text (ended - begun)))
      return report.status
