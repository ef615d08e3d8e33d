import Scriptlet.Lexeme.Literal
import Scriptlet.Lexeme.Number
import Scriptlet.Lexeme.Word

/-!
# Lexemes

The first character of a text says what kind of lexeme stands there. Only the percent sign needs the
character after it: it is the sigil of a hash if a name follows, and an operator otherwise. The main
statement is `scan_of`: no scan loses a character, and every token takes at least one.
-/

namespace Scriptlet.Lexeme

/-- Whether a percent sign in front of this text is an operator. -/
def isPercentOperator (text : List Char) : Bool := !text.head?.any isNamePart

/-- Read one lexeme off the front of a text that does not start with white space. -/
def scan : List Char → Scan
  | [] => .faulty .unexpectedEnd [] []
  | character :: text =>
      if character = '%' && isPercentOperator text then symbol (character :: text)
      else if let some kind := VariableKind.ofSigil? character then variableName kind text
      else if character = '.' || character.isDigit then number (character :: text)
      else if character = '"' then stringLiteral text
      else if character = '\'' then characterLiteral text
      else if isSymbolPart character then symbol (character :: text)
      else if character.isUpper then typeName (character :: text)
      else if character.isLower then reservedWord (character :: text)
      else .faulty (.unrecognisedCharacter character) [] (character :: text)

/-- A scan loses nothing, a token takes something, and a fault lies in what was taken. -/
theorem scan_of (text : List Char) : (scan text).Of text := by
  unfold scan
  split
  next => exact Scan.faulty_of rfl
  next character text =>
    split
    next => exact symbol_of _
    next =>
      split
      next kind sigil =>
        rw [(VariableKind.ofSigil?_eq_some_iff character kind).mp sigil]
        exact variableName_of kind text
      next =>
        repeat' split
        · exact number_of _
        · next quote => exact quote ▸ stringLiteral_of text
        · next quote => exact quote ▸ characterLiteral_of text
        · exact symbol_of _
        · exact typeName_of _
        · exact reservedWord_of _
        · exact Scan.faulty_of rfl

end Scriptlet.Lexeme
