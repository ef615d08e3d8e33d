import Scriptlet.Json.Pretty
import Scriptlet.Tree.Statement

/-!
# Trees as JSON

Every node of a tree is an object whose members stand in a fixed order. Expressions and statements
say in their first member what they are; a block that stands for a whole program does not.
-/

namespace Scriptlet

/-- A position as an object. -/
def Position.toJson (position : Position) : Json :=
  .object [("offset", .number position.offset.toNat), ("line", .number position.line.toNat),
    ("column", .number position.column.toNat), ("file", .text position.file)]

/-- A span as an object. -/
def Span.toJson (span : Span) : Json :=
  .object [("start", span.start.toJson), ("end", span.stop.toJson)]

/-- A token as an object. -/
def Token.toJson (token : Token) : Json :=
  .object [("kind", .text token.kind.name), ("value", .text token.value),
    ("span", token.span.toJson)]

/-- An expression as an object. -/
def Expression.toJson : Expression → Json
  | .binary operator left right =>
      .object [("type", .text "Binary"), ("operator", operator.toJson), ("left", left.toJson),
        ("right", right.toJson)]
  | .unary operator operand =>
      .object [("type", .text "Prefix"), ("operator", operator.toJson),
        ("right", operand.toJson)]
  | .atom token => .object [("type", .text "Literal"), ("token", token.toJson)]
  | .call callee => .object [("type", .text "Call"), ("callee", callee.toJson)]

/-- What a statement is called in its first member. -/
def Statement.label : Statement → String
  | .block .. => "Block"
  | .assignment .. => "Assignment"
  | .conditional .. => "If"
  | .loop .. => "While"

/-- An object that says in its first member what it is. -/
def Json.labelled (label : String) (members : List (String × Json)) : Json :=
  .object (("type", .text label) :: members)

mutual

/-- The members of a statement, without the one that says what it is. -/
def Statement.members : Statement → List (String × Json)
  | .block body span => [("body", .list (Statement.allToJson body)), ("span", span.toJson)]
  | .assignment target value span =>
      [("identifier", target.toJson), ("value", value.toJson), ("span", span.toJson)]
  | .conditional condition branch alternatives span =>
      [("condition", condition.toJson), ("then_body", .labelled branch.label branch.members),
        ("else_ifs", .list alternatives.clausesToJson), ("else_body", alternatives.lastToJson),
        ("span", span.toJson)]
  | .loop condition body span =>
      [("condition", condition.toJson), ("body", .labelled body.label body.members),
        ("span", span.toJson)]
  termination_by structural statement => statement

/-- Statements as objects. -/
def Statement.allToJson : List Statement → List Json
  | [] => []
  | first :: others => .labelled first.label first.members :: Statement.allToJson others
  termination_by structural statements => statements

/-- The `else if` clauses of a conditional as objects. -/
def Alternatives.clausesToJson : Alternatives → List Json
  | .nothing => []
  | .otherwise _ => []
  | .elseIf condition branch span others =>
      .object [("condition", condition.toJson), ("body", .labelled branch.label branch.members),
        ("span", span.toJson)] :: others.clausesToJson
  termination_by structural alternatives => alternatives

/-- The last branch of a conditional as an object, or null. -/
def Alternatives.lastToJson : Alternatives → Json
  | .nothing => .null
  | .otherwise branch => .labelled branch.label branch.members
  | .elseIf _ _ _ others => others.lastToJson
  termination_by structural alternatives => alternatives

end

/-- A statement as an object. -/
def Statement.toJson (statement : Statement) : Json :=
  .labelled statement.label statement.members

/-- A block that stands for a whole program, as an object. -/
def Block.toJson (block : Block) : Json := .object block.toStatement.members

end Scriptlet
