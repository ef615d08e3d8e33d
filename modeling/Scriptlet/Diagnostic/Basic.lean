import Scriptlet.Diagnostic.Cause
import Scriptlet.Source.Lines
import Scriptlet.Source.Place

/-!
# Diagnostics

A diagnostic is a cause with the position it is about. `render` shows it against the source: the
name and tip of the cause, the file, the line it points into with its indentation removed, and an
arrow that ends below the character at the position.
-/

namespace Scriptlet

/-- A cause at a position. Reading a program stops at its first diagnostic. -/
structure Diagnostic where
  cause : Cause
  position : Position
  deriving DecidableEq, Repr

namespace Diagnostic

/-- The message of the cause and where it applies. -/
def message (diagnostic : Diagnostic) : String :=
  diagnostic.cause.message ++ " at " ++ diagnostic.position.text

/-- Whether a character indents a line. -/
def isIndent (character : Char) : Bool := character = ' ' || character = '\t'

/-- The line that the diagnostic points into, empty if the source has no such line. -/
def sourceLine (diagnostic : Diagnostic) (source : List Char) : List Char :=
  (Lines.line? source diagnostic.position.line.toNat).getD []

/-- How many indenting characters are left out of the excerpt. -/
def indent (diagnostic : Diagnostic) (source : List Char) : Nat :=
  ((diagnostic.sourceLine source).takeWhile isIndent).length

/-- The number of the line, as the margin of the excerpt shows it. -/
def lineNumber (diagnostic : Diagnostic) : List Char :=
  Nat.toDigits 10 diagnostic.position.line.toNat

/-- The bar of a line without a number, below the bar of the numbered line. -/
def margin (diagnostic : Diagnostic) : List Char :=
  List.replicate (diagnostic.lineNumber.length + 1) ' ' ++ ['|']

/-- The name of the cause, with its tip if it has one. -/
def headline (diagnostic : Diagnostic) : String :=
  match diagnostic.cause.tip? with
  | none => "Error: " ++ diagnostic.cause.name
  | some tip => "Error: " ++ diagnostic.cause.name ++ " (" ++ tip ++ ")"

/-- The numbered line of source, without its indentation and the white space at its end. -/
def excerpt (diagnostic : Diagnostic) (source : List Char) : List Char :=
  diagnostic.lineNumber ++ [' ', '|', ' '] ++
    Text.trimEnd ((diagnostic.sourceLine source).dropWhile isIndent)

/-- How wide the arrow is, its head included. It has at least a head. -/
def arrowWidth (diagnostic : Diagnostic) (source : List Char) : Nat :=
  max (diagnostic.position.column.toNat - diagnostic.indent source) 1

/-- The arrow below the excerpt. -/
def arrow (diagnostic : Diagnostic) (source : List Char) : List Char :=
  diagnostic.margin ++ [' '] ++
    List.replicate (diagnostic.arrowWidth source - 1) '-' ++ ['^']

/-- The diagnostic against the source it was found in, line by line. -/
def lines (diagnostic : Diagnostic) (source : List Char) : List (List Char) :=
  [diagnostic.headline.toList, "-> ".toList ++ diagnostic.position.file.toList,
    diagnostic.margin, diagnostic.excerpt source, diagnostic.arrow source]

/-- The diagnostic as text. Every line is closed by a line feed. -/
def render (diagnostic : Diagnostic) (source : String) : String :=
  String.ofList ((diagnostic.lines source.toList).flatMap fun line => line ++ ['\n'])

end Diagnostic

end Scriptlet
