import Scriptlet.Token.Basic

/-!
# Expressions and statements

Expressions keep the tokens they were built from. Grouping parentheses leave no trace: the shape of
the tree says what they said.

A statement is a block, an assignment, a conditional or a loop. What follows the first branch of a
conditional is a chain of alternatives: any number of `else if` clauses and at most one `else`,
which ends the chain. Every statement knows its span.

Statements have decidable equality. It compares everything, spans and file names included
(`Statement.same_iff`).
-/

namespace Scriptlet

/-- An expression. -/
inductive Expression where
  /-- Two operands joined by the operator between them. -/
  | binary (operator : Token) (left right : Expression)
  /-- An operator in front of its operand. -/
  | unary (operator : Token) (operand : Expression)
  /-- A literal or the value of a variable. -/
  | atom (token : Token)
  /-- A call without arguments. -/
  | call (callee : Token)
  deriving DecidableEq, Repr

namespace Expression

/-- The operator, literal or variable that the expression is about. -/
def token : Expression → Token
  | .binary operator _ _ => operator
  | .unary operator _ => operator
  | .atom token => token
  | .call callee => callee

end Expression

mutual

/-- A statement. -/
inductive Statement where
  /-- Statements between braces. -/
  | block (body : List Statement) (span : Span)
  /-- A variable given a value. -/
  | assignment (target : Token) (value : Expression) (span : Span)
  /-- A branch taken if its condition holds, and the alternatives to it. -/
  | conditional (condition : Expression) (branch : Statement) (alternatives : Alternatives)
      (span : Span)
  /-- A body repeated while its condition holds. -/
  | loop (condition : Expression) (body : Statement) (span : Span)

/-- What a conditional does if its first condition fails. -/
inductive Alternatives where
  /-- Nothing. -/
  | nothing
  /-- A last branch without condition. -/
  | otherwise (branch : Statement)
  /-- One more condition with its branch. The clause spans from its `else` to the end of the
  branch. -/
  | elseIf (condition : Expression) (branch : Statement) (span : Span) (others : Alternatives)

end

/-- A clause of a conditional after the first. -/
structure ElseIf where
  condition : Expression
  branch : Statement
  span : Span

/-- A list of statements with its span: a braced block, or a whole program. -/
structure Block where
  body : List Statement
  span : Span

namespace Alternatives

/-- The `else if` clauses in order. -/
def clauses : Alternatives → List ElseIf
  | .nothing => []
  | .otherwise _ => []
  | .elseIf condition branch span others => ⟨condition, branch, span⟩ :: others.clauses

/-- The branch after the last `else`, if there is one. -/
def last? : Alternatives → Option Statement
  | .nothing => none
  | .otherwise branch => some branch
  | .elseIf _ _ _ others => others.last?

end Alternatives

namespace Statement

/-- Where the statement stands. -/
def span : Statement → Span
  | .block _ span => span
  | .assignment _ _ span => span
  | .conditional _ _ _ span => span
  | .loop _ _ span => span

end Statement

namespace Alternatives

/-- Where the last of the alternatives ends, if there is one. -/
def stop? : Alternatives → Option Position
  | .nothing => none
  | .otherwise branch => some branch.span.stop
  | .elseIf _ _ span others => some (others.stop?.getD span.stop)

end Alternatives

/-- The block as a statement. -/
def Block.toStatement (block : Block) : Statement := .block block.body block.span

mutual

/-- Whether two statements agree in everything. -/
def Statement.same : Statement → Statement → Bool
  | .block body span, .block body' span' => Statement.sameAll body body' && span == span'
  | .assignment target value span, .assignment target' value' span' =>
      target == target' && value == value' && span == span'
  | .conditional condition branch alternatives span,
      .conditional condition' branch' alternatives' span' =>
      condition == condition' && branch.same branch' && alternatives.same alternatives' &&
        span == span'
  | .loop condition body span, .loop condition' body' span' =>
      condition == condition' && body.same body' && span == span'
  | _, _ => false
  termination_by structural statement => statement

/-- Whether two lists of statements agree in everything. -/
def Statement.sameAll : List Statement → List Statement → Bool
  | [], [] => true
  | first :: others, first' :: others' => first.same first' && Statement.sameAll others others'
  | _, _ => false
  termination_by structural statements => statements

/-- Whether two chains of alternatives agree in everything. -/
def Alternatives.same : Alternatives → Alternatives → Bool
  | .nothing, .nothing => true
  | .otherwise branch, .otherwise branch' => branch.same branch'
  | .elseIf condition branch span others, .elseIf condition' branch' span' others' =>
      condition == condition' && branch.same branch' && span == span' && others.same others'
  | _, _ => false
  termination_by structural alternatives => alternatives

end

mutual

/-- Statements that agree in everything are equal. -/
theorem Statement.same_iff : (left right : Statement) → (left.same right = true ↔ left = right)
  | .block body _, .block body' _ => by
      simp [Statement.same, Statement.sameAll_iff body body']
  | .assignment .., .assignment .. => by simp [Statement.same, and_assoc]
  | .conditional _ branch alternatives _, .conditional _ branch' alternatives' _ => by
      simp [Statement.same, Statement.same_iff branch branch',
        Alternatives.same_iff alternatives alternatives', and_assoc]
  | .loop _ body _, .loop _ body' _ => by
      simp [Statement.same, Statement.same_iff body body', and_assoc]
  | .block .., .assignment .. | .block .., .conditional .. | .block .., .loop ..
  | .assignment .., .block .. | .assignment .., .conditional .. | .assignment .., .loop ..
  | .conditional .., .block .. | .conditional .., .assignment .. | .conditional .., .loop ..
  | .loop .., .block .. | .loop .., .assignment .. | .loop .., .conditional .. => by
      simp [Statement.same]

/-- Lists of statements that agree in everything are equal. -/
theorem Statement.sameAll_iff :
    (left right : List Statement) → (Statement.sameAll left right = true ↔ left = right)
  | [], [] => by simp [Statement.sameAll]
  | first :: others, first' :: others' => by
      simp [Statement.sameAll, Statement.same_iff first first',
        Statement.sameAll_iff others others']
  | [], _ :: _ | _ :: _, [] => by simp [Statement.sameAll]

/-- Chains of alternatives that agree in everything are equal. -/
theorem Alternatives.same_iff :
    (left right : Alternatives) → (left.same right = true ↔ left = right)
  | .nothing, .nothing => by simp [Alternatives.same]
  | .otherwise branch, .otherwise branch' => by
      simp [Alternatives.same, Statement.same_iff branch branch']
  | .elseIf _ branch _ others, .elseIf _ branch' _ others' => by
      simp [Alternatives.same, Statement.same_iff branch branch',
        Alternatives.same_iff others others', and_assoc]
  | .nothing, .otherwise .. | .nothing, .elseIf .. | .otherwise .., .nothing
  | .otherwise .., .elseIf .. | .elseIf .., .nothing | .elseIf .., .otherwise .. => by
      simp [Alternatives.same]

end

instance : DecidableEq Statement := fun left right =>
  decidable_of_iff (left.same right = true) (Statement.same_iff left right)

deriving instance DecidableEq for ElseIf, Block

end Scriptlet
