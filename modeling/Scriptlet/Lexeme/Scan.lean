import Scriptlet.Diagnostic.Cause

/-!
# Scans

A scan is one attempt to read a lexeme at the front of a text: the characters it took, the
characters it left, and what it makes of the former. It knows no positions. The text taken and the
text left are always the whole text again, and a token is never empty (`Scan.Of`).

Scans go by classes of characters: those that separate tokens, continue a name, form symbols and
are digits of each base. Every class is a set of ASCII characters, and no other character belongs
to any of them.
-/

namespace Scriptlet.Lexeme

/-! ## Classes of characters -/

/-- The six characters that may stand between tokens. -/
def isSpace (character : Char) : Bool :=
  character == ' ' || character == '\t' || character == '\r' || character == '\n' ||
    character == '\x0B' || character == '\x0C'

/-- Characters that may follow a sigil. -/
def isNamePart (character : Char) : Bool := character.isAlphanum || character == '_'

/-- Characters that symbols are made of. Not every run of them is a symbol. -/
def isSymbolPart (character : Char) : Bool :=
  "+-*/^;&|\x7b\x7d[]()=!%".toList.contains character

/-- Binary digits. -/
def isBinaryDigit (character : Char) : Bool := character == '0' || character == '1'

/-- Octal digits. -/
def isOctalDigit (character : Char) : Bool := '0' ≤ character && character ≤ '7'

/-- Hexadecimal digits of either case. -/
def isHexDigit (character : Char) : Bool :=
  character.isDigit || ('a' ≤ character && character ≤ 'f') ||
    ('A' ≤ character && character ≤ 'F')

/-! ## Attempts to read a lexeme -/

/-- What a scan makes of the characters it took: a token, or a fault that many characters into
them. -/
inductive Reading where
  | token (kind : TokenKind) (value : List Char)
  | fault (cause : Cause) (ahead : Nat)
  deriving DecidableEq, Repr

/-- An attempt to read one lexeme. -/
structure Scan where
  taken : List Char
  rest : List Char
  reading : Reading
  deriving DecidableEq, Repr

namespace Scan

/-- A token that is the text it was read from. -/
def verbatim (kind : TokenKind) (text rest : List Char) : Scan := ⟨text, rest, .token kind text⟩

/-- A fault of everything taken. -/
def faulty (cause : Cause) (taken rest : List Char) : Scan := ⟨taken, rest, .fault cause 0⟩

/-- `scan.Of text` says that the scan loses nothing of `text`, that a token takes some of it, and
that a fault lies within what was taken. -/
structure Of (scan : Scan) (text : List Char) : Prop where
  split : scan.taken ++ scan.rest = text
  progress : ∀ kind value, scan.reading = .token kind value → scan.taken ≠ []
  within : ∀ cause ahead, scan.reading = .fault cause ahead → ahead ≤ scan.taken.length

theorem verbatim_of {kind : TokenKind} {taken rest text : List Char}
    (split : taken ++ rest = text) (nonempty : taken ≠ []) :
    (verbatim kind taken rest).Of text where
  split := split
  progress _ _ _ := nonempty
  within _ _ fault := by simp [verbatim] at fault

theorem faulty_of {cause : Cause} {taken rest text : List Char}
    (split : taken ++ rest = text) : (faulty cause taken rest).Of text where
  split := split
  progress _ _ token := by simp [faulty] at token
  within _ _ fault := by
    simp only [faulty, Reading.fault.injEq] at fault
    omega

/-- A scan that read a token leaves less than it was given. -/
theorem Of.rest_lt {scan : Scan} {text : List Char} (of : scan.Of text) {kind : TokenKind}
    {value : List Char} (token : scan.reading = .token kind value) :
    scan.rest.length < text.length := by
  have nonempty := List.length_pos_iff.mpr (of.progress kind value token)
  rw [← of.split, List.length_append]
  omega

end Scan

end Scriptlet.Lexeme
