import Scriptlet.Cursor.Basic
import Scriptlet.Grammar

/-!
# Readers

A reader holds a cursor, at most one token that it has looked at and not used, the number of
productions that are open, and the grammar. It reads no token before one is asked for, and looking
at a token twice shows the same token. At the end of the input it sees a token that stands for the
end, as often as it looks.

Parsing is a computation over a reader (`Parse`) that keeps the reader when it halts, so that a
caller may go on after an error from where the error left it.
-/

namespace Scriptlet

/-- A source of tokens with one token of lookahead. -/
structure Reader where
  cursor : Cursor
  lookahead : Option Token
  /-- How many productions are open. -/
  depth : Nat
  /-- The most productions that have been open at one time. -/
  deepest : Nat
  grammar : Grammar

namespace Reader

/-- A reader at a cursor that knows the language. -/
def ofCursor (cursor : Cursor) : Reader where
  cursor := cursor
  lookahead := none
  depth := 0
  deepest := 0
  grammar := .standard

/-- A reader at the start of a source text. -/
def ofSource (source : String) (file : Option String) : Reader :=
  ofCursor (Cursor.ofSource source file)

/-- The token after the lookahead, or the token for the end of the input. -/
def pull (reader : Reader) : Except Diagnostic Token × Cursor :=
  if reader.cursor.hasNext then
    reader.cursor.nextToken
  else
    (.ok (.endOfInput reader.cursor.position), reader.cursor)

/-- A bound on the tokens of the source that are still to be used: the characters left, and one for
a lookahead that is not the end of the input. -/
def unread (reader : Reader) : Nat :=
  reader.cursor.rest.length +
    if reader.lookahead.any (fun token => token.kind ≠ .endOfInput) then 1 else 0

end Reader

/-- Why parsing halts without a result. -/
inductive Halt where
  /-- The source is wrong. -/
  | failed (diagnostic : Diagnostic)
  /-- A production would repeat for ever, because the grammar lets the end of the input stand for an
  operand and for an operator. -/
  | endless
  deriving DecidableEq, Repr

/-- A computation that reads tokens. -/
abbrev Parse := EStateM Halt Reader

namespace Parse

/-- Halt with a cause at a position. -/
def fail {α : Type} (cause : Cause) (position : Position) : Parse α :=
  throw (.failed ⟨cause, position⟩)

/-- The next token, which stays the next token. -/
def peek : Parse Token := fun reader =>
  match reader.lookahead with
  | some token => .ok token reader
  | none =>
      match reader.pull with
      | (.ok token, cursor) => .ok token { reader with cursor, lookahead := some token }
      | (.error diagnostic, cursor) => .error (.failed diagnostic) { reader with cursor }

/-- The kind of the next token. -/
def peekKind : Parse TokenKind := do
  return (← peek).kind

/-- Use up the next token. -/
def advance : Parse Token := fun reader =>
  match reader.lookahead with
  | some token => .ok token { reader with lookahead := none }
  | none =>
      match reader.pull with
      | (.ok token, cursor) => .ok token { reader with cursor }
      | (.error diagnostic, cursor) => .error (.failed diagnostic) { reader with cursor }

/-- Use up the next token if it is of one of the kinds. -/
def expectOneOf (kinds : List TokenKind) : Parse Token := do
  let token ← peek
  if token.kind ∈ kinds then
    advance
  else
    fail (.unexpectedToken kinds token.kind token.value) token.span.start

/-- Use up the next token if it is of the kind. -/
def expect (kind : TokenKind) : Parse Token := expectOneOf [kind]

/-- Whether a token of the source is left. -/
def hasTokens : Parse Bool := do
  return (← peekKind) ≠ .endOfInput

/-- Halt because productions nest too deeply. -/
def tooDeep {α : Type} (limit : Nat) : Parse α := do
  let token ← peek
  fail (.nestingTooDeep limit) token.span.start

/-- Run a production one level further in. The level is left again, however the production ends. -/
def opened {α : Type} (production : Parse α) : Parse α := fun reader =>
  let depth := reader.depth + 1
  match production { reader with depth, deepest := max reader.deepest depth } with
  | .ok result after => .ok result { after with depth := after.depth - 1 }
  | .error halt after => .error halt { after with depth := after.depth - 1 }

/-- Run a production one level further in, unless the limit is reached. -/
def nested {α : Type} (limit : Nat) (production : Parse α) : Parse α := fun reader =>
  if reader.depth < limit then opened production reader else tooDeep limit reader

end Parse

end Scriptlet
