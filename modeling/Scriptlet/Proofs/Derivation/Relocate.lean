import Scriptlet.Proofs.Derivation.Nodes
import Scriptlet.Proofs.Lexing.Slice

/-!
# Trees at another place

All positions of a tree are positions of its tokens, so moving the tokens moves the tree with them
and changes nothing else (`From.relocate`).
-/

namespace Scriptlet

/-- The expression with all its positions moved. -/
def Expression.relocate (move : Position → Position) : Expression → Expression
  | .binary operator left right =>
      .binary (operator.relocate move) (left.relocate move) (right.relocate move)
  | .unary operator operand => .unary (operator.relocate move) (operand.relocate move)
  | .atom token => .atom (token.relocate move)
  | .call callee => .call (callee.relocate move)

mutual

/-- The statement with all its positions moved. -/
def Statement.relocate (move : Position → Position) : Statement → Statement
  | .block body span => .block (Statement.relocateAll move body) (span.relocate move)
  | .assignment target value span =>
      .assignment (target.relocate move) (value.relocate move) (span.relocate move)
  | .conditional condition branch alternatives span =>
      .conditional (condition.relocate move) (branch.relocate move) (alternatives.relocate move)
        (span.relocate move)
  | .loop condition body span =>
      .loop (condition.relocate move) (body.relocate move) (span.relocate move)
  termination_by structural statement => statement

/-- The statements with all their positions moved. -/
def Statement.relocateAll (move : Position → Position) : List Statement → List Statement
  | [] => []
  | first :: others => first.relocate move :: Statement.relocateAll move others
  termination_by structural statements => statements

/-- The alternatives with all their positions moved. -/
def Alternatives.relocate (move : Position → Position) : Alternatives → Alternatives
  | .nothing => .nothing
  | .otherwise branch => .otherwise (branch.relocate move)
  | .elseIf condition branch span others =>
      .elseIf (condition.relocate move) (branch.relocate move) (span.relocate move)
        (others.relocate move)
  termination_by structural alternatives => alternatives

end

/-- The block with all its positions moved. -/
def Block.relocate (move : Position → Position) (block : Block) : Block :=
  ⟨Statement.relocateAll move block.body, block.span.relocate move⟩

variable {move : Position → Position}

@[simp] theorem Statement.span_relocate (statement : Statement) :
    (statement.relocate move).span = statement.span.relocate move := by
  cases statement <;> simp [relocate, span]

@[simp] theorem Alternatives.stop?_relocate (alternatives : Alternatives) :
    (alternatives.relocate move).stop? = alternatives.stop?.map move := by
  fun_induction Alternatives.stop? alternatives with
  | case1 => rfl
  | case2 branch => simp [relocate, stop?, Span.relocate]
  | case3 _ _ span others ih => simp [relocate, stop?, ih, Span.relocate, Option.getD_map]

/-- Kinds are not moved. -/
theorem NextNot.relocate {kinds : TokenKind → Prop} {tokens : List Token}
    (next : NextNot kinds tokens) : NextNot kinds (tokens.map (Token.relocate move)) := by
  cases tokens with
  | nil => exact next
  | cons token tokens =>
      rintro other ⟨⟩
      exact next token rfl

namespace Part

/-- The part with all its positions moved. -/
def relocate (move : Position → Position) : Part → Part
  | .expression power value => .expression power (value.relocate move)
  | .operand value => .operand (value.relocate move)
  | .group value => .group (value.relocate move)
  | .joined power left whole => .joined power (left.relocate move) (whole.relocate move)
  | .statement value => .statement (value.relocate move)
  | .alternatives value => .alternatives (value.relocate move)
  | .statements values => .statements (Statement.relocateAll move values)

/-- A part that is read from tokens is read, with all its positions moved, from the tokens moved. -/
theorem From.relocate {part : Part} {levels : Nat} {tokens rest : List Token}
    (derives : part.From levels tokens rest) (move : Position → Position) :
    (part.relocate move).From levels (tokens.map (Token.relocate move))
      (rest.map (Token.relocate move)) := by
  induction derives with
  | literal kind => exact .literal kind
  | name kind alone => exact .name kind alone.relocate
  | call kind opens closes => exact .call kind opens closes
  | unary kind _ ih => exact .unary kind ih
  | grouped _ ih => exact .grouped ih
  | group opens _ closes ih => exact .group opens ih closes
  | last ends => exact .last ends.relocate
  | further binds stronger _ _ operandIH othersIH =>
      exact .further binds stronger operandIH othersIH
  | expression _ _ firstIH othersIH => exact .expression firstIH othersIH
  | @assignment _ target equals _ _ _ _ named sets _ closes ih =>
      have namedHere : (target.relocate move).kind ∈ TokenKind.identifiers := named
      have setsHere : (equals.relocate move).kind = .assign := sets
      exact .assignment namedHere setsHere ih closes
  | @conditional _ start condition branch alternatives _ _ _ _ begins _ _ _ askedIH firstIH
      othersIH =>
      have beginsHere : (start.relocate move).kind = .ifWord := begins
      have moved := From.conditional beginsHere askedIH firstIH othersIH
      rw [Alternatives.stop?_relocate, Statement.span_relocate, Span.relocate, Option.getD_map]
        at moved
      exact moved
  | @loop _ start _ body _ _ _ begins _ _ askedIH bodyIH =>
      have beginsHere : (start.relocate move).kind = .whileWord := begins
      have moved := From.loop beginsHere askedIH bodyIH
      rw [Statement.span_relocate] at moved
      exact moved
  | @block _ opening _ _ _ _ opens _ closes ih =>
      have opensHere : (opening.relocate move).kind = .openCurly := opens
      exact .block opensHere ih closes
  | nothing ends => exact .nothing ends.relocate
  | otherwise begins bare _ ih => exact .otherwise begins bare.relocate ih
  | @elseIf _ start second _ branch _ _ _ _ _ begins asks _ _ _ askedIH innerIH othersIH =>
      have beginsHere : (start.relocate move).kind = .elseWord := begins
      have asksHere : (second.relocate move).kind = .ifWord := asks
      have moved := From.elseIf beginsHere asksHere askedIH innerIH othersIH
      rw [Statement.span_relocate] at moved
      exact moved
  | nil => exact .nil
  | cons _ _ innerIH othersIH => exact .cons innerIH othersIH

end Part

end Scriptlet
