import Scriptlet.Lexeme.Scan

/-!
# Numbers

Integers are decimal, octal, hexadecimal or binary, and may end in a suffix for sign and length.
Floats have a point, an exponent or both; hexadecimal floats need an exponent, after `p`. A leading
zero makes a number octal, until an `8` or a `9` shows that it is decimal after all.

`State` lists what can have been read so far and `State.step` what may follow. A number is read as
far as it goes, and the state reached says whether that is an integer, a float, or what is missing.
-/

namespace Scriptlet.Lexeme

namespace Number

/-- What has been read of a number. Two states of one kind differ in what may follow. -/
inductive State where
  /-- Nothing yet. -/
  | nothing
  /-- A point without digits before it. -/
  | point
  /-- A decimal number with its point. -/
  | fraction
  /-- A number with the letter of its exponent. -/
  | exponentMark
  /-- A number with the sign of its exponent. -/
  | exponentSign
  /-- A number with digits of its exponent. -/
  | exponent
  /-- A float that cannot go on. -/
  | float
  /-- A single zero. -/
  | zero
  /-- A zero and octal digits. -/
  | octal
  /-- A zero and digits, among them an eight or a nine. -/
  | promoted
  /-- Decimal digits, the first of them not zero. -/
  | decimal
  /-- The mark of a hexadecimal number. -/
  | hexMark
  /-- The mark of a hexadecimal number and a point. -/
  | hexPoint
  /-- A hexadecimal number with its point. -/
  | hexFraction
  /-- Hexadecimal digits. -/
  | hex
  /-- The mark of a binary number. -/
  | binaryMark
  /-- Binary digits. -/
  | binary
  /-- An integer marked unsigned. -/
  | unsigned
  /-- An integer marked unsigned and then long, by this letter. -/
  | unsignedLong (letter : Char)
  /-- An integer marked long, by this letter. -/
  | long (letter : Char)
  /-- An integer marked long twice. -/
  | longLong
  /-- An integer that cannot go on. -/
  | integer
  deriving DecidableEq, Repr

namespace State

/-- Letters that mark an integer unsigned. -/
def isUnsignedMark (character : Char) : Bool := character == 'u' || character == 'U'

/-- Letters that mark an integer long. Doubled, both are of one case. -/
def isLongMark (character : Char) : Bool := character == 'l' || character == 'L'

/-- Letters that close a float. -/
def isFloatMark (character : Char) : Bool :=
  character == 'f' || character == 'F' || isLongMark character

/-- Letters before a decimal exponent. -/
def isExponentMark (character : Char) : Bool := character == 'e' || character == 'E'

/-- Letters before the exponent of a hexadecimal float. -/
def isHexExponentMark (character : Char) : Bool := character == 'p' || character == 'P'

/-- The start of an integer's suffix. -/
def suffix? (character : Char) : Option State :=
  if isUnsignedMark character then some .unsigned
  else if isLongMark character then some (.long character)
  else none

/-- What may follow decimal digits, apart from more of them. -/
def afterDigits? (character : Char) : Option State :=
  if character == '.' then some .fraction
  else if isExponentMark character then some .exponentMark
  else suffix? character

/-- The state after one more character, if that character can belong to the number. -/
def step : State → Char → Option State
  | .nothing, character =>
      if character == '.' then some .point
      else if character == '0' then some .zero
      else if character.isDigit then some .decimal
      else none
  | .point, character => if character.isDigit then some .fraction else none
  | .fraction, character =>
      if character.isDigit then some .fraction
      else if isExponentMark character then some .exponentMark
      else if isFloatMark character then some .float
      else none
  | .exponentMark, character =>
      if character == '+' || character == '-' then some .exponentSign
      else if character.isDigit then some .exponent
      else none
  | .exponentSign, character => if character.isDigit then some .exponent else none
  | .exponent, character =>
      if character.isDigit then some .exponent
      else if isFloatMark character then some .float
      else none
  | .float, _ => none
  | .zero, character =>
      if character == 'x' || character == 'X' then some .hexMark
      else if character == 'b' || character == 'B' then some .binaryMark
      else if isOctalDigit character then some .octal
      else if character.isDigit then some .promoted
      else afterDigits? character
  | .octal, character =>
      if isOctalDigit character then some .octal
      else if character.isDigit then some .promoted
      else afterDigits? character
  | .promoted, character =>
      if character.isDigit then some .promoted
      else if character == 'f' || character == 'F' then some .float
      else afterDigits? character
  | .decimal, character =>
      if character.isDigit then some .decimal else afterDigits? character
  | .hexMark, character =>
      if character == '.' then some .hexPoint
      else if isHexDigit character then some .hex
      else none
  | .hexPoint, character => if isHexDigit character then some .hexFraction else none
  | .hexFraction, character =>
      if isHexDigit character then some .hexFraction
      else if isHexExponentMark character then some .exponentMark
      else none
  | .hex, character =>
      if isHexDigit character then some .hex
      else if isHexExponentMark character then some .exponentMark
      else if character == '.' then some .hexFraction
      else suffix? character
  | .binaryMark, character => if isBinaryDigit character then some .binary else none
  | .binary, character => if isBinaryDigit character then some .binary else suffix? character
  | .unsigned, character => if isLongMark character then some (.unsignedLong character) else none
  | .unsignedLong letter, character => if character == letter then some .integer else none
  | .long letter, character =>
      if character == letter then some .longLong
      else if isUnsignedMark character then some .integer
      else none
  | .longLong, character => if isUnsignedMark character then some .integer else none
  | .integer, _ => none

/-- What a number is when nothing more of it follows: its kind, or what it lacks. -/
def verdict : State → Except String TokenKind
  | .nothing | .point | .exponentMark | .exponentSign => .error "expected a decimal digit"
  | .hexMark | .hexPoint => .error "expected a hexadecimal digit"
  | .hexFraction => .error "hexadecimal floating-point literals require a `p` exponent"
  | .binaryMark => .error "expected a binary digit"
  | .fraction | .exponent | .float => .ok .floatLiteral
  | .zero | .octal | .promoted | .decimal | .hex | .binary => .ok .integerLiteral
  | .unsigned | .unsignedLong _ | .long _ | .longLong | .integer => .ok .integerLiteral

end State

/-- How far a number goes. -/
structure Run where
  taken : List Char
  rest : List Char
  state : State
  deriving DecidableEq, Repr

/-- Read on from a state for as long as characters can belong to the number. -/
def run (state : State) : List Char → Run
  | [] => ⟨[], [], state⟩
  | character :: text =>
      match state.step character with
      | none => ⟨[], character :: text, state⟩
      | some next =>
          let onward := run next text
          ⟨character :: onward.taken, onward.rest, onward.state⟩

/-- A run loses nothing. -/
theorem run_split (state : State) (text : List Char) :
    (run state text).taken ++ (run state text).rest = text := by
  induction text generalizing state with
  | nil => rfl
  | cons character text ih =>
      unfold run
      split
      next => rfl
      next next _ => simp [ih next]

/-- A run that takes nothing stays where it is. -/
theorem run_state_of_taken_nil (state : State) (text : List Char)
    (nothing : (run state text).taken = []) : (run state text).state = state := by
  cases text with
  | nil => rfl
  | cons character text =>
      unfold run at nothing ⊢
      split
      next => rfl
      next next step => simp [step] at nothing

end Number

/-- A number, as long as it can be. -/
def number (text : List Char) : Scan :=
  let run := Number.run .nothing text
  match run.state.verdict with
  | .ok kind => .verbatim kind run.taken run.rest
  | .error detail => .faulty (.invalidNumber (String.ofList run.taken) detail) run.taken run.rest

theorem number_of (text : List Char) : (number text).Of text := by
  unfold number
  dsimp only
  split
  next kind verdict =>
    refine Scan.verbatim_of (Number.run_split .nothing text) ?_
    intro nothing
    rw [Number.run_state_of_taken_nil .nothing text nothing] at verdict
    simp [Number.State.verdict] at verdict
  next => exact Scan.faulty_of (Number.run_split .nothing text)

end Scriptlet.Lexeme
