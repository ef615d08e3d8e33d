import Scriptlet.Reader.Program

/-!
# Sessions with a reader

A session puts requests to one reader, in any order, and goes on after errors with the reader as
they left it. Requests read tokens, start any production, change the grammar, or run further
requests one level further in.
-/

namespace Scriptlet

/-- A primary operand, and an operator after it with its right operand. -/
def Parse.afterPrimary (power : Power) : Parse Expression := do
  let left ← primary
  start nestingLimit fun inner => binary inner left power

namespace Reader

/-- What may be asked of a reader. -/
inductive Request where
  | file
  | peek
  | peekKind
  | advance
  | hasTokens
  | expect (kind : TokenKind)
  | expectOneOf (kinds : List TokenKind)
  | statement
  | expression (power : Power)
  | conditional
  | loop
  | assignment
  | block
  | program
  | primary
  | reference
  | unary
  | grouping
  /-- A primary operand, and an operator after it with its right operand. -/
  | binary (power : Power)
  | nested (requests : List Request)
  | registerStatement (kind : TokenKind) (rule : StatementRule)
  | registerOperand (kind : TokenKind) (rule : OperandRule)
  | registerOperator (kind : TokenKind) (power : Power) (rule : OperatorRule)
  | grammar

/-- The answer to a request. -/
inductive Reply where
  | halted (halt : Halt)
  | file (name : String)
  | token (value : Token)
  | kind (value : TokenKind)
  | flag (value : Bool)
  | statement (value : Statement)
  | expression (value : Expression)
  | block (value : Block)
  | nested (replies : List Reply)
  | done
  | grammar (value : Grammar)

/-- Run a computation on a reader and turn its result into a reply. -/
def ask {α : Type} (reader : Reader) (computation : Parse α) (reply : α → Reply) :
    Reply × Reader :=
  match computation reader with
  | .ok result after => (reply result, after)
  | .error halt after => (.halted halt, after)

/-- Change the grammar. -/
def learn (reader : Reader) (change : Grammar → Grammar) : Reply × Reader :=
  (.done, { reader with grammar := change reader.grammar })

mutual

/-- Answer one request. -/
def perform (reader : Reader) : Request → Reply × Reader
  | .file => (.file reader.cursor.file, reader)
  | .peek => reader.ask .peek .token
  | .peekKind => reader.ask .peekKind .kind
  | .advance => reader.ask .advance .token
  | .hasTokens => reader.ask .hasTokens .flag
  | .expect kind => reader.ask (.expect kind) .token
  | .expectOneOf kinds => reader.ask (.expectOneOf kinds) .token
  | .statement => reader.ask (.statement Parse.nestingLimit) .statement
  | .expression power => reader.ask (.expression Parse.nestingLimit power) .expression
  | .conditional => reader.ask (.start Parse.nestingLimit .conditional) .statement
  | .loop => reader.ask (.start Parse.nestingLimit .loop) .statement
  | .assignment => reader.ask (.start Parse.nestingLimit .assignment) .statement
  | .block => reader.ask (.start Parse.nestingLimit .block) .block
  | .program => reader.ask (.start Parse.nestingLimit .programBlock) .block
  | .primary => reader.ask .primary .expression
  | .reference => reader.ask .reference .expression
  | .unary => reader.ask (.start Parse.nestingLimit .unary) .expression
  | .grouping => reader.ask (.start Parse.nestingLimit .grouping) .expression
  | .binary power => reader.ask (.afterPrimary power) .expression
  | .nested requests =>
      reader.ask
        (.nested Parse.nestingLimit fun inside =>
          let (replies, after) := inside.performAll requests
          .ok replies after)
        .nested
  | .registerStatement kind rule => reader.learn (·.registerStatement kind rule)
  | .registerOperand kind rule => reader.learn (·.registerOperand kind rule)
  | .registerOperator kind power rule => reader.learn (·.registerOperator kind power rule)
  | .grammar => (.grammar reader.grammar, reader)
  termination_by structural request => request

/-- Answer requests in turn. -/
def performAll (reader : Reader) : List Request → List Reply × Reader
  | [] => ([], reader)
  | request :: requests =>
      let (reply, after) := reader.perform request
      let (replies, last) := after.performAll requests
      (reply :: replies, last)
  termination_by structural requests => requests

end

end Reader

end Scriptlet
