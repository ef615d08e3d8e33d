import Scriptlet.Text.Quoted
import Scriptlet.Token.Basic

/-!
# What can go wrong

A `Cause` says what stopped the reading of a program and carries the text it is about. Its name, its
message, its tip and the phase it belongs to are functions of the cause alone.
-/

namespace Scriptlet

/-- Which half of reading a program failed: cutting it into tokens, or building the tree. -/
inductive Phase where
  | lexical
  | syntactic
  deriving DecidableEq, Repr

/-- What is wrong with the source. -/
inductive Cause where
  | unrecognisedCharacter (character : Char)
  | invalidIdentifier (text : String)
  | invalidNumber (text detail : String)
  | invalidEscape (sequence : String)
  | invalidCharacterLiteral (text : String)
  | unterminatedLiteral (quote : Char)
  | unknownKeyword (word : String)
  | unknownType (word : String)
  | unknownSymbol (symbol : String)
  | unexpectedEnd
  | unexpectedToken (expected : List TokenKind) (received : TokenKind) (text : String)
  | expectedExpression (text : String)
  | nestingTooDeep (limit : Nat)
  deriving DecidableEq, Repr

namespace Cause

/-- The phase that a cause belongs to. -/
def phase : Cause → Phase
  | .unexpectedToken .. | .expectedExpression .. | .nestingTooDeep .. => .syntactic
  | _ => .lexical

/-- The name of a cause. -/
def name : Cause → String
  | .unrecognisedCharacter _ => "UnrecognisedCharacter"
  | .invalidIdentifier _ => "InvalidIdentifier"
  | .invalidNumber .. => "InvalidNumber"
  | .invalidEscape _ => "InvalidEscapeSequence"
  | .invalidCharacterLiteral _ => "InvalidCharacterLiteral"
  | .unterminatedLiteral _ => "UnterminatedLiteral"
  | .unknownKeyword _ => "UnknownKeyword"
  | .unknownType _ => "UnknownType"
  | .unknownSymbol _ => "UnknownSymbol"
  | .unexpectedEnd => "UnexpectedEndOfInput"
  | .unexpectedToken .. => "UnexpectedToken"
  | .expectedExpression _ => "ExpectedExpression"
  | .nestingTooDeep _ => "NestingTooDeep"

/-- Names of kinds with commas between them. -/
def kindNames (kinds : List TokenKind) : String :=
  ", ".intercalate (kinds.map TokenKind.name)

/-- The one-line statement of what is wrong. -/
def message : Cause → String
  | .unrecognisedCharacter character => "unrecognised character: " ++ Text.quotedChar character
  | .invalidIdentifier text => "invalid identifier: " ++ Text.quoted text
  | .invalidNumber text detail =>
      "invalid number literal (" ++ detail ++ "): " ++ Text.quoted text
  | .invalidEscape sequence => "invalid escape sequence: \\" ++ sequence
  | .invalidCharacterLiteral text => "invalid character literal: " ++ Text.quoted text
  | .unterminatedLiteral quote =>
      "unterminated literal, expected closing " ++ Text.quotedChar quote
  | .unknownKeyword word => "unknown keyword " ++ Text.quoted word
  | .unknownType word => "unknown type " ++ Text.quoted word
  | .unknownSymbol symbol => "unknown symbol " ++ Text.quoted symbol
  | .unexpectedEnd => "unexpected end of input"
  | .unexpectedToken expected received text =>
      "unexpected token " ++ Text.quoted text ++ ": expected [" ++ kindNames expected ++
        "], received " ++ received.name
  | .expectedExpression text => "expected expression, received " ++ Text.quoted text
  | .nestingTooDeep limit => "nesting exceeds " ++ Nat.repr limit ++ " levels"

/-- The kinds that would have been accepted, in words. A single kind stands alone. -/
def describeKinds : List TokenKind → String
  | [kind] => kind.name
  | kinds => "one of " ++ kindNames kinds

/-- A hint for the author of the program, where there is one to give. Text is quoted as it is. -/
def tip? : Cause → Option String
  | .unrecognisedCharacter _ => none
  | .invalidIdentifier text =>
      some ("Invalid identifier `" ++ text ++
        "`, a sigil must be followed by a letter, digit or underscore")
  | .invalidNumber text detail => some ("Invalid number `" ++ text ++ "`, " ++ detail)
  | .invalidEscape sequence => some ("Invalid escape sequence `\\" ++ sequence ++ "`")
  | .invalidCharacterLiteral text =>
      some ("Invalid character literal `'" ++ text ++ "`, expected exactly one character")
  | .unterminatedLiteral quote =>
      some ("Literal is missing its closing `" ++ quote.toString ++ "`")
  | .unknownKeyword word => some ("Unknown keyword `" ++ word ++ "`")
  | .unknownType word => some ("Unknown type `" ++ word ++ "` found")
  | .unknownSymbol symbol => some ("Unknown symbol `" ++ symbol ++ "`")
  | .unexpectedEnd => none
  | .unexpectedToken expected received text =>
      some ("Expected " ++ describeKinds expected ++ ", received " ++ received.name ++ " `" ++
        text ++ "`")
  | .expectedExpression text => some ("Expected an expression, found `" ++ text ++ "`")
  | .nestingTooDeep limit =>
      some ("Nesting is limited to " ++ Nat.repr limit ++
        " levels, split this into smaller pieces")

end Cause

end Scriptlet
