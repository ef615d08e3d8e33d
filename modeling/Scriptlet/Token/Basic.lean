import Scriptlet.Source.Place

/-!
# Tokens

The language has variables marked by a sigil, four kinds of literals, five built-in type names,
three reserved words and a handful of symbols. A token kind has a name, which listings, messages and
printed trees use, and the names are pairwise different. Reserved words, type names and symbols are
finite vocabularies: lists of spellings with the kind of token that each one makes.

A token keeps the text it was read from, except that string and character literals keep only what
stands between their quotes, with escapes as written. `sourceText` puts the quotes back.
-/

namespace Scriptlet

/-! ## Kinds -/

/-- What a variable holds. Its sigil says so. -/
inductive VariableKind where
  | scalar
  | array
  | hash
  deriving DecidableEq, Repr

namespace VariableKind

/-- Every kind of variable. -/
def all : List VariableKind := [.scalar, .array, .hash]

/-- The sigil of each kind of variable. -/
def sigil : VariableKind → Char
  | .scalar => '$'
  | .array => '@'
  | .hash => '%'

/-- The kind of variable that a sigil introduces. -/
def ofSigil? (character : Char) : Option VariableKind :=
  if character = '$' then some .scalar
  else if character = '@' then some .array
  else if character = '%' then some .hash
  else none

/-- The name of each kind of variable. -/
def name : VariableKind → String
  | .scalar => "Scalar"
  | .array => "Array"
  | .hash => "Hash"

/-- A character introduces a kind exactly if it is the sigil of that kind. -/
theorem ofSigil?_eq_some_iff (character : Char) (kind : VariableKind) :
    ofSigil? character = some kind ↔ character = kind.sigil := by
  unfold ofSigil?
  repeat' split
  all_goals cases kind <;> simp_all [sigil]

end VariableKind

/-- Who may use a variable. A leading underscore makes it private. -/
inductive Visibility where
  | everyone
  | owner
  deriving DecidableEq, Repr

namespace Visibility

/-- The word for a visibility inside the name of a token kind. -/
def name : Visibility → String
  | .everyone => "Public"
  | .owner => "Private"

end Visibility

/-- The kinds of tokens. `endOfInput` is never read from the source: it stands for its end. -/
inductive TokenKind where
  | endOfInput
  | identifier (kind : VariableKind) (visibility : Visibility)
  | integerLiteral
  | floatLiteral
  | stringLiteral
  | characterLiteral
  | stringType
  | integerType
  | characterType
  | floatType
  | voidType
  | openBracket
  | closeBracket
  | openCurly
  | closeCurly
  | openParen
  | closeParen
  | assign
  | logicalNot
  | logicalOr
  | logicalAnd
  | semicolon
  | plus
  | dash
  | slash
  | star
  | percent
  | ifWord
  | elseWord
  | whileWord
  deriving DecidableEq, Repr

namespace TokenKind

/-- The kinds of variable tokens, public before private for each sigil. -/
def identifiers : List TokenKind :=
  VariableKind.all.flatMap fun kind => [.identifier kind .everyone, .identifier kind .owner]

/-- The kinds of literal tokens. -/
def literals : List TokenKind :=
  [.integerLiteral, .floatLiteral, .stringLiteral, .characterLiteral]

/-- Every kind of token, in the order in which reference listings show them. -/
def all : List TokenKind :=
  [.endOfInput] ++ identifiers ++ literals ++
    [.stringType, .integerType, .characterType, .floatType, .voidType,
      .openBracket, .closeBracket, .openCurly, .closeCurly, .openParen, .closeParen,
      .assign, .logicalNot, .logicalOr, .logicalAnd, .semicolon,
      .plus, .dash, .slash, .star, .percent, .ifWord, .elseWord, .whileWord]

/-- Nothing is missing from the list of all kinds. -/
theorem mem_all (kind : TokenKind) : kind ∈ all := by
  cases kind with
  | identifier kind visibility => cases kind <;> cases visibility <;> decide
  | _ => decide

/-- Whether tokens of this kind name a variable. -/
def isIdentifier (kind : TokenKind) : Bool := kind ∈ identifiers

/-- Whether tokens of this kind are literals. -/
def isLiteral (kind : TokenKind) : Bool := kind ∈ literals

/-- The name of a kind. -/
def name : TokenKind → String
  | .endOfInput => "EOF"
  | .identifier kind visibility => "Id" ++ visibility.name ++ kind.name
  | .integerLiteral => "IntegerLiteral"
  | .floatLiteral => "FloatingPointLiteral"
  | .stringLiteral => "StringLiteral"
  | .characterLiteral => "CharacterLiteral"
  | .stringType => "TypeString"
  | .integerType => "TypeInteger"
  | .characterType => "TypeCharacter"
  | .floatType => "TypeFloat"
  | .voidType => "TypeVoid"
  | .openBracket => "OpenBracket"
  | .closeBracket => "CloseBracket"
  | .openCurly => "OpenCurly"
  | .closeCurly => "CloseCurly"
  | .openParen => "OpenParen"
  | .closeParen => "CloseParen"
  | .assign => "Assignment"
  | .logicalNot => "Not"
  | .logicalOr => "Or"
  | .logicalAnd => "And"
  | .semicolon => "Semicolon"
  | .plus => "Plus"
  | .dash => "Dash"
  | .slash => "Slash"
  | .star => "Star"
  | .percent => "Percent"
  | .ifWord => "If"
  | .elseWord => "Else"
  | .whileWord => "While"

/-- The kind with the given name. -/
def ofName? (name : String) : Option TokenKind :=
  all.find? fun kind => kind.name == name

/-- Reading the name of a kind gives the kind back. -/
theorem ofName?_name (kind : TokenKind) : ofName? kind.name = some kind := by
  cases kind with
  | identifier kind visibility => cases kind <;> cases visibility <;> decide
  | _ => decide

/-- Two kinds with one name are one kind. -/
theorem name_injective {left right : TokenKind} (equal : left.name = right.name) :
    left = right := by
  have found := ofName?_name left
  rw [equal, ofName?_name right] at found
  exact (Option.some.inj found).symm

end TokenKind

/-! ## Vocabularies -/

/-- Spellings with the kinds of their tokens. -/
abbrev Vocabulary := List (List Char × TokenKind)

namespace Vocabulary

/-- The kind that a spelling makes. -/
def kindOf? (vocabulary : Vocabulary) (spelling : List Char) : Option TokenKind :=
  vocabulary.lookup spelling

/-- Reserved words. -/
def reserved : Vocabulary :=
  [("while".toList, .whileWord), ("if".toList, .ifWord), ("else".toList, .elseWord)]

/-- Built-in type names. -/
def types : Vocabulary :=
  [("String".toList, .stringType), ("Integer".toList, .integerType),
    ("Character".toList, .characterType), ("Float".toList, .floatType),
    ("Void".toList, .voidType)]

/-- Operators and punctuation. -/
def symbols : Vocabulary :=
  [(['('], .openParen), ([')'], .closeParen), (['['], .openBracket), ([']'], .closeBracket),
    (['\x7b'], .openCurly), (['\x7d'], .closeCurly), (['+'], .plus), (['-'], .dash),
    (['*'], .star), (['/'], .slash), (['%'], .percent), (['&', '&'], .logicalAnd),
    (['|', '|'], .logicalOr), (['!'], .logicalNot), (['='], .assign), ([';'], .semicolon)]

end Vocabulary

/-! ## Tokens in the source -/

/-- A token with its text and its place in the source. -/
structure Token where
  kind : TokenKind
  value : String
  span : Span
  deriving DecidableEq, Repr

namespace Token

/-- The token as it stands in the source. -/
def sourceText (token : Token) : String :=
  match token.kind with
  | .stringLiteral => "\"" ++ token.value ++ "\""
  | .characterLiteral => "'" ++ token.value ++ "'"
  | _ => token.value

/-- The line of a token listing: kind, start and text. -/
def listing (token : Token) : String :=
  token.kind.name ++ " [" ++ token.span.start.text ++ "]: " ++ token.value

/-- The token that stands for the end of the input. -/
def endOfInput (position : Position) : Token where
  kind := .endOfInput
  value := "EOF"
  span := ⟨position, position⟩

end Token

end Scriptlet
