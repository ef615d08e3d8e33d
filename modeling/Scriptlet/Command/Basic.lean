import Scriptlet.Command.Directory
import Scriptlet.Json.Pretty
import Scriptlet.Reader.Program
import Scriptlet.Tree.Written

/-!
# The command

The command lists the tokens of a file, or with `--ast` prints its syntax tree. What it does is a
function of its arguments and of the file: `Report` says what is printed and how the command ends,
and only the time that a successful run took is filled in afterwards. A duration is written in the
largest unit that it fills, with as many decimals as it needs.
-/

namespace Scriptlet.Elapsed

/-- A unit of time: its name, how many nanoseconds it has, and how many decimals that number
calls for. -/
structure TimeUnit where
  name : String
  size : Nat
  places : Nat

/-- The units from the largest to the smallest. -/
def units : List TimeUnit :=
  [⟨"s", 1000000000, 9⟩, ⟨"ms", 1000000, 6⟩, ⟨"µs", 1000, 3⟩]

/-- Decimals with zeros in front up to the given places, and none at the end. -/
def decimals (remainder places : Nat) : String :=
  let digits := Nat.toDigits 10 remainder
  let padded := List.replicate (places - digits.length) '0' ++ digits
  match (padded.reverse.dropWhile (· == '0')).reverse with
  | [] => ""
  | shown => "." ++ String.ofList shown

/-- A number of nanoseconds as text. -/
def text (nanoseconds : Nat) : String :=
  match units.find? (fun unit => unit.size ≤ nanoseconds) with
  | none => Nat.repr nanoseconds ++ "ns"
  | some unit =>
      Nat.repr (nanoseconds / unit.size) ++ decimals (nanoseconds % unit.size) unit.places ++
        unit.name

end Scriptlet.Elapsed

namespace Scriptlet.Command

/-- What the command was asked to do. -/
structure Invocation where
  path : String
  printTree : Bool
  deriving DecidableEq, Repr

namespace Invocation

/-- A file, or a file and the flag for its tree. -/
def ofArguments? : List String → Option Invocation
  | [path] => some ⟨path, false⟩
  | [path, flag] => if flag = "--ast" then some ⟨path, true⟩ else none
  | _ => none

/-- The name that diagnostics give to the file: the last name of the path, or the path itself if it
ends in no name. -/
def fileName (invocation : Invocation) : String :=
  let names := (invocation.path.splitOn "/").filter fun name => name ≠ "" ∧ name ≠ "."
  match names.getLast? with
  | none => invocation.path
  | some name => if name = ".." then invocation.path else name

end Invocation

/-- What goes to the user apart from the output. -/
inductive Notice where
  | nothing
  | usage
  | unreadable (path : String) (failure : ReadFailure)
  | tokenized
  | parsed

/-- The text of a notice, given the time that the run took. -/
def Notice.text (elapsed : String) : Notice → String
  | .nothing => ""
  | .usage => "Usage: sigil <file> [--ast]\n"
  | .unreadable path failure => "Failed to read " ++ path ++ ": " ++ failure.reason ++ "\n"
  | .tokenized => "Tokenized in " ++ elapsed ++ "\n"
  | .parsed => "Parsed in " ++ elapsed ++ "\n"

/-- What the command prints and how it ends. -/
structure Report where
  status : UInt32
  output : String
  notice : Notice

namespace Report

/-- The report on wrong arguments. -/
def usage : Report := ⟨2, "", .usage⟩

/-- The report on a file that cannot be read. -/
def unreadable (path : String) (failure : ReadFailure) : Report :=
  ⟨1, "", .unreadable path failure⟩

end Report

/-- Read tokens while there are any, up to the first fault. -/
def listTokens (cursor : Cursor) : List Token × Option Diagnostic :=
  if cursor.hasNext then
    match _ : cursor.nextToken with
    | (.ok token, after) =>
        let remaining := listTokens after
        (token :: remaining.1, remaining.2)
    | (.error diagnostic, _) => ([], some diagnostic)
  else
    ([], none)
termination_by cursor.rest.length
decreasing_by exact Cursor.nextToken_rest_lt (by assumption)

/-- List the tokens of a source, one on a line. A fault is shown after the tokens before it. -/
def tokenReport (source file : String) : Report :=
  let (tokens, fault) := listTokens (Cursor.ofSource source (some file))
  let listing := String.join (tokens.map fun token => token.listing ++ "\n")
  match fault with
  | none => ⟨0, listing, .tokenized⟩
  | some diagnostic => ⟨1, listing ++ diagnostic.render source, .nothing⟩

/-- Print the syntax tree of a source, or what is wrong with it. -/
def treeReport (source file : String) : Report :=
  match parse source (some file) with
  | .ok block => ⟨0, block.toJson.toText ++ "\n", .parsed⟩
  | .error (.failed diagnostic) => ⟨1, diagnostic.render source, .nothing⟩
  | .error .endless => ⟨1, "", .nothing⟩

/-- What the command does with the file it was given. -/
def Invocation.report (invocation : Invocation) : Except ReadFailure String → Report
  | .error failure => .unreadable invocation.path failure
  | .ok source =>
      if invocation.printTree then treeReport source invocation.fileName
      else tokenReport source invocation.fileName

/-- Run the command in a directory. -/
def run (directory : Directory) (arguments : List String) : Report :=
  match Invocation.ofArguments? arguments with
  | none => .usage
  | some invocation => invocation.report (directory.readText invocation.path)

end Scriptlet.Command
