import Scriptlet.Reader.Basic
import Scriptlet.Tree.Statement

/-!
# Productions

The productions of statements and expressions, over whatever grammar the reader holds. A production
is written in terms of the statements and expressions one level further in (`Productions`), and
`Productions.within` closes the knot by recursion on the number of levels that may still be opened,
so that nesting is bounded by construction.

Repetition is bounded by what is left to read: a round of a loop that goes on has used up a token of
the source. Only a grammar that lets the end of the input stand for an operand and for an operator
breaks this rule, and then the loop halts as `endless`.
-/

namespace Scriptlet

/-- How to read the statements and the expressions inside a production. -/
structure Productions where
  statement : Parse Statement
  expression : Power → Parse Expression

namespace Parse

/-- One more round than what is left to read. -/
def rounds : Parse Nat := do
  return (← get).unread + 1

/-! ## Operands and operators -/

/-- A token that is an operand by itself. -/
def primary : Parse Expression := do
  return .atom (← advance)

/-- A variable, or a call if parentheses follow it. -/
def reference : Parse Expression := do
  let name ← advance
  if (← peekKind) = .openParen then
    let _ ← advance
    let _ ← expect .closeParen
    return .call name
  else
    return .atom name

/-- An operator in front of its operand. -/
def unary (inner : Productions) : Parse Expression := do
  let operator ← advance
  let operand ← inner.expression .unary
  return .unary operator operand

/-- An expression in parentheses. -/
def grouping (inner : Productions) : Parse Expression := do
  let _ ← expect .openParen
  let expression ← inner.expression .lowest
  let _ ← expect .closeParen
  return expression

/-- An operand by its rule. -/
def operand (inner : Productions) : OperandRule → Parse Expression
  | .primary => primary
  | .reference => reference
  | .unary => unary inner
  | .grouping => grouping inner

/-- An operator and its right operand, after the left one. -/
def binary (inner : Productions) (left : Expression) (power : Power) : Parse Expression := do
  let operator ← advance
  let right ← inner.expression power
  return .binary operator left right

/-- An operator with its right operand by its rule. -/
def operator (inner : Productions) (left : Expression) (power : Power) :
    OperatorRule → Parse Expression
  | .binary => binary inner left power

/-- Join operators to the operand on their left for as long as they bind more strongly than
`power`. -/
def operators (inner : Productions) (power : Power) : Nat → Expression → Parse Expression
  | 0, _ => throw .endless
  | rounds + 1, left => do
      let kind ← peekKind
      let grammar := (← get).grammar
      match grammar.powers kind, grammar.operators kind with
      | some next, some rule =>
          if next ≤ power then
            return left
          else
            operators inner power rounds (← operator inner left next rule)
      | _, _ => return left

/-- An operand and the operators after it that bind more strongly than `power`. -/
def expressionBody (inner : Productions) (power : Power) : Parse Expression := do
  let token ← peek
  match (← get).grammar.operands token.kind with
  | none => fail (.expectedExpression token.value) token.span.start
  | some rule =>
      let left ← operand inner rule
      operators inner power (← rounds) left

/-! ## Statements -/

/-- A condition in parentheses. -/
def condition (inner : Productions) : Parse Expression := grouping inner

/-- The alternatives of a conditional. Every `else` that follows belongs to it, up to the first one
without a condition. -/
def alternatives (inner : Productions) : Nat → Parse Alternatives
  | 0 => throw .endless
  | rounds + 1 => do
      if (← peekKind) = .elseWord then
        let start := (← advance).span.start
        if (← peekKind) = .ifWord then
          let _ ← advance
          let condition ← condition inner
          let branch ← inner.statement
          let others ← alternatives inner rounds
          return .elseIf condition branch ⟨start, branch.span.stop⟩ others
        else
          return .otherwise (← inner.statement)
      else
        return .nothing

/-- A conditional. It ends where the last of its branches ends. -/
def conditional (inner : Productions) : Parse Statement := do
  let start := (← expect .ifWord).span.start
  let condition ← condition inner
  let branch ← inner.statement
  let alternatives ← alternatives inner (← rounds)
  let stop := alternatives.stop?.getD branch.span.stop
  return .conditional condition branch alternatives ⟨start, stop⟩

/-- A loop. -/
def loop (inner : Productions) : Parse Statement := do
  let start := (← expect .whileWord).span.start
  let condition ← condition inner
  let body ← inner.statement
  return .loop condition body ⟨start, body.span.stop⟩

/-- Statements up to a closing brace or the end of the input, neither of which is used up. -/
def statements (inner : Productions) : Nat → Parse (List Statement)
  | 0 => throw .endless
  | rounds + 1 => do
      let kind ← peekKind
      if kind = .closeCurly ∨ kind = .endOfInput then
        return []
      else
        let first ← inner.statement
        return first :: (← statements inner rounds)

/-- Statements between braces. -/
def block (inner : Productions) : Parse Block := do
  let start := (← expect .openCurly).span.start
  let body ← statements inner (← rounds)
  let stop := (← expect .closeCurly).span.stop
  return ⟨body, ⟨start, stop⟩⟩

/-- An assignment. -/
def assignment (inner : Productions) : Parse Statement := do
  let target ← expectOneOf TokenKind.identifiers
  let _ ← expect .assign
  let value ← inner.expression .lowest
  let stop := (← expect .semicolon).span.stop
  return .assignment target value ⟨target.span.start, stop⟩

/-- A statement by its rule. -/
def statementBy (inner : Productions) : StatementRule → Parse Statement
  | .conditional => conditional inner
  | .loop => loop inner
  | .block => do return (← block inner).toStatement
  | .assignment => assignment inner

/-- A statement by the rule for its first token. A token without a rule can only be meant to begin
an assignment. -/
def statementBody (inner : Productions) : Parse Statement := do
  let kind ← peekKind
  statementBy inner (((← get).grammar.statements kind).getD .assignment)

/-- All statements up to the end of the input. -/
def program (inner : Productions) : Nat → Parse (List Statement)
  | 0 => throw .endless
  | rounds + 1 => do
      if ← hasTokens then
        let first ← inner.statement
        return first :: (← program inner rounds)
      else
        return []

end Parse

namespace Productions

/-- Statements and expressions that open at most `levels` productions inside one another. The limit
is what a diagnostic reports when that is not enough. -/
def within (limit : Nat) : (levels : Nat) → Productions
  | 0 => ⟨Parse.tooDeep limit, fun _ => Parse.tooDeep limit⟩
  | levels + 1 =>
      let inner := within limit levels
      ⟨Parse.opened (Parse.statementBody inner),
        fun power => Parse.opened (Parse.expressionBody inner power)⟩

end Productions

end Scriptlet
