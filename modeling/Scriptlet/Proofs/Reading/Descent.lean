import Scriptlet.Grammar
import Scriptlet.Proofs.Lexing.Stream
import Scriptlet.Tree.Statement

/-!
# Recursive descent

The language once more, read the way its grammar is written: one function for each category, over a
plain list of tokens, without tables, without powers and without a limit on nesting.  Each layer of
operators is a left fold over the next tighter layer, and the node of an operator keeps the token
that was matched.

Every function says how many tokens it leaves (`Parsed`), so that the recursion ends because the
list gets shorter.
-/

namespace Scriptlet.Descent

/-- What comes of reading at the front of a list of tokens: a value and the tokens left, fewer than
`bound`, or the diagnostic that reading stops with. -/
inductive Parsed (α : Type) (bound : Nat) where
  | done (value : α) (rest : List Token) (fewer : rest.length < bound)
  | stopped (diagnostic : Diagnostic)

namespace Parsed

variable {α β : Type} {bound other : Nat}

/-- Read on with what is left, unless reading has stopped. -/
def andThen (parsed : Parsed α bound)
    (next : α → (rest : List Token) → rest.length < bound → Parsed β other) : Parsed β other :=
  match parsed with
  | .done value rest fewer => next value rest fewer
  | .stopped diagnostic => .stopped diagnostic

/-- Forget part of how few tokens are left. -/
def widen (within : bound ≤ other) (parsed : Parsed α bound) : Parsed α other :=
  parsed.andThen fun value rest fewer => .done value rest (Nat.lt_of_lt_of_le fewer within)

/-- The outcome without the bound. -/
def result : Parsed α bound → Except Diagnostic (α × List Token)
  | .done value rest _ => .ok (value, rest)
  | .stopped diagnostic => .error diagnostic

/-- The tokens left are fewer than the bound. -/
theorem length_lt {parsed : Parsed α bound} {value : α} {rest : List Token}
    (done : parsed.result = .ok (value, rest)) : rest.length < bound := by
  cases parsed with
  | done value rest fewer =>
      cases done
      exact fewer
  | stopped diagnostic => cases done

end Parsed

/-- The complaint about a token of none of the kinds. -/
def unexpected (kinds : List TokenKind) (token : Token) : Diagnostic :=
  ⟨.unexpectedToken kinds token.kind token.value, token.span.start⟩

/-- The complaint about a token that begins no operand. -/
def notOperand (token : Token) : Diagnostic := ⟨.expectedExpression token.value, token.span.start⟩

/-- Stop with a complaint about the current token, or with the fault that stands in its place. -/
def blame (ending : Except Diagnostic Token) (complaint : Token → Diagnostic)
    (tokens : List Token) : Diagnostic :=
  match current ending tokens with
  | .ok token => complaint token
  | .error diagnostic => diagnostic

/-- Keep a value after a look at the current token, which has to be there. -/
def settle {α : Type} (ending : Except Diagnostic Token) (value : α) (tokens : List Token) :
    Parsed α (tokens.length + 1) :=
  match current ending tokens with
  | .ok _ => .done value tokens (Nat.lt_succ_self _)
  | .error diagnostic => .stopped diagnostic

/-- A token of one of the kinds. -/
def takeOneOf (ending : Except Diagnostic Token) (kinds : List TokenKind) :
    (tokens : List Token) → Parsed Token tokens.length
  | [] => .stopped (blame ending (unexpected kinds) [])
  | token :: rest =>
      if token.kind ∈ kinds then
        .done token rest (Nat.lt_succ_self _)
      else
        .stopped (unexpected kinds token)

/-! ## Expressions -/

/-- The layers of expressions, from the loosest to the tightest. -/
inductive Layer where
  | logicalOr
  | logicalAnd
  | additive
  | multiplicative
  | unary
  deriving DecidableEq, Repr

namespace Layer

/-- The operators that join the operands of a layer. -/
def operators : Layer → List TokenKind
  | .logicalOr => [.logicalOr]
  | .logicalAnd => [.logicalAnd]
  | .additive => [.plus, .dash]
  | .multiplicative => [.star, .slash, .percent]
  | .unary => []

/-- The layer of the operands of a layer.  There is nothing below the tightest. -/
def tighter : Layer → Layer
  | .logicalOr => .logicalAnd
  | .logicalAnd => .additive
  | .additive => .multiplicative
  | .multiplicative => .unary
  | .unary => .unary

/-- How many layers are tighter. -/
def height : Layer → Nat
  | .logicalOr => 4
  | .logicalAnd => 3
  | .additive => 2
  | .multiplicative => 1
  | .unary => 0

theorem height_tighter {layer : Layer} (binary : layer ≠ .unary) :
    layer.tighter.height < layer.height := by
  cases layer with
  | unary => exact absurd rfl binary
  | _ => exact Nat.lt_succ_self _

end Layer

/-- A variable, or a call if parentheses follow its name. -/
def afterName (ending : Except Diagnostic Token) (name : Token) :
    (tokens : List Token) → Parsed Expression (tokens.length + 1)
  | [] => settle ending (.atom name) []
  | token :: rest =>
      if token.kind = .openParen then
        (takeOneOf ending [.closeParen] rest).andThen fun _ after fewer =>
          .done (.call name) after (by simp only [List.length_cons]; omega)
      else
        .done (.atom name) (token :: rest) (Nat.lt_succ_self _)

mutual

/-- `Literal | Identifier ('(' ')')? | '(' LogicalOr ')'` -/
def primaryFrom (ending : Except Diagnostic Token) :
    (tokens : List Token) → Parsed Expression tokens.length
  | [] => .stopped (blame ending notOperand [])
  | token :: rest =>
      if token.kind.isLiteral then
        .done (.atom token) rest (Nat.lt_succ_self _)
      else if token.kind.isIdentifier then
        afterName ending token rest
      else if token.kind = .openParen then
        (layerFrom ending .logicalOr rest).andThen fun inner after _ =>
          (takeOneOf ending [.closeParen] after).andThen fun _ last _ =>
            .done inner last (by simp only [List.length_cons]; omega)
      else
        .stopped (notOperand token)
termination_by tokens => (tokens.length, 0)

/-- `'!'* Primary` -/
def unaryFrom (ending : Except Diagnostic Token) :
    (tokens : List Token) → Parsed Expression tokens.length
  | [] => primaryFrom ending []
  | token :: rest =>
      if token.kind = .logicalNot then
        (unaryFrom ending rest).andThen fun operand after _ =>
          .done (.unary token operand) after (by simp only [List.length_cons]; omega)
      else
        primaryFrom ending (token :: rest)
termination_by tokens => (tokens.length, 1)

/-- A layer: one operand of the next tighter layer and any number of further ones.  It ends with a
look at the token behind it. -/
def layerFrom (ending : Except Diagnostic Token) (layer : Layer) (tokens : List Token) :
    Parsed Expression tokens.length :=
  if _ : layer = .unary then
    (unaryFrom ending tokens).andThen fun operand rest fewer =>
      (settle ending operand rest).widen fewer
  else
    (layerFrom ending layer.tighter tokens).andThen fun left rest fewer =>
      (moreFrom ending layer left rest).widen fewer
termination_by (tokens.length, layer.height + 2)
decreasing_by
  · exact Prod.Lex.right _ (by omega)
  · exact Prod.Lex.right _ (Nat.add_lt_add_right (Layer.height_tighter ‹_›) 2)
  · exact Prod.Lex.left _ _ fewer

/-- The further operands of a layer, each folded into what stands to the left of its operator. -/
def moreFrom (ending : Except Diagnostic Token) (layer : Layer) (left : Expression) :
    (tokens : List Token) → Parsed Expression (tokens.length + 1)
  | [] => settle ending left []
  | token :: rest =>
      if token.kind ∈ layer.operators then
        (layerFrom ending layer.tighter rest).andThen fun right after fewer =>
          (moreFrom ending layer (.binary token left right) after).widen
            (by simp only [List.length_cons]; omega)
      else
        .done left (token :: rest) (Nat.lt_succ_self _)
termination_by tokens => (tokens.length, 0)

end

/-! ## Statements -/

/-- `'(' LogicalOr ')'` -/
def conditionFrom (ending : Except Diagnostic Token) (tokens : List Token) :
    Parsed Expression tokens.length :=
  (takeOneOf ending [.openParen] tokens).andThen fun _ rest _ =>
    (layerFrom ending .logicalOr rest).andThen fun condition after _ =>
      (takeOneOf ending [.closeParen] after).andThen fun _ last _ =>
        .done condition last (by omega)

/-- `Identifier '=' LogicalOr ';'` -/
def assignmentFrom (ending : Except Diagnostic Token) (tokens : List Token) :
    Parsed Statement tokens.length :=
  (takeOneOf ending TokenKind.identifiers tokens).andThen fun target rest _ =>
    (takeOneOf ending [.assign] rest).andThen fun _ after _ =>
      (layerFrom ending .logicalOr after).andThen fun value later _ =>
        (takeOneOf ending [.semicolon] later).andThen fun close last _ =>
          .done (.assignment target value ⟨target.span.start, close.span.stop⟩) last (by omega)

mutual

/-- A statement.  Whatever begins no other statement has to begin an assignment. -/
def statementFrom (ending : Except Diagnostic Token) :
    (tokens : List Token) → Parsed Statement tokens.length
  | [] => assignmentFrom ending []
  | token :: rest =>
      if token.kind = .ifWord then
        (conditionFrom ending rest).andThen fun condition after _ =>
          (statementFrom ending after).andThen fun branch later _ =>
            (alternativesFrom ending later).andThen fun alternatives last _ =>
              .done
                (.conditional condition branch alternatives
                  ⟨token.span.start, alternatives.stop?.getD branch.span.stop⟩)
                last (by simp only [List.length_cons]; omega)
      else if token.kind = .whileWord then
        (conditionFrom ending rest).andThen fun condition after _ =>
          (statementFrom ending after).andThen fun body last _ =>
            .done (.loop condition body ⟨token.span.start, body.span.stop⟩) last
              (by simp only [List.length_cons]; omega)
      else if token.kind = .openCurly then
        (statementsFrom ending [.closeCurly] rest).andThen fun body after _ =>
          (takeOneOf ending [.closeCurly] after).andThen fun close last _ =>
            .done (.block body ⟨token.span.start, close.span.stop⟩) last
              (by simp only [List.length_cons]; omega)
      else
        assignmentFrom ending (token :: rest)
termination_by tokens => (tokens.length, 0)
decreasing_by all_goals exact Prod.Lex.left _ _ (by simp only [List.length_cons]; omega)

/-- `('else' 'if' '(' LogicalOr ')' Statement)* ('else' Statement)?` -/
def alternativesFrom (ending : Except Diagnostic Token) :
    (tokens : List Token) → Parsed Alternatives (tokens.length + 1)
  | [] => settle ending .nothing []
  | token :: rest =>
      if token.kind = .elseWord then
        (afterElseFrom ending token.span.start rest).widen
          (by simp only [List.length_cons]; omega)
      else
        .done .nothing (token :: rest) (Nat.lt_succ_self _)
termination_by tokens => (tokens.length, 0)
decreasing_by exact Prod.Lex.left _ _ (Nat.lt_succ_self _)

/-- What follows an `else` that begins at `start`: a condition with its branch and further
alternatives, or the last branch. -/
def afterElseFrom (ending : Except Diagnostic Token) (start : Position) :
    (tokens : List Token) → Parsed Alternatives tokens.length
  | [] => (statementFrom ending []).andThen fun branch last fewer =>
      .done (.otherwise branch) last fewer
  | token :: rest =>
      if token.kind = .ifWord then
        (conditionFrom ending rest).andThen fun condition after _ =>
          (statementFrom ending after).andThen fun branch later _ =>
            (alternativesFrom ending later).andThen fun others last _ =>
              .done (.elseIf condition branch ⟨start, branch.span.stop⟩ others) last
                (by simp only [List.length_cons]; omega)
      else
        (statementFrom ending (token :: rest)).andThen fun branch last fewer =>
          .done (.otherwise branch) last fewer
termination_by tokens => (tokens.length, 1)
decreasing_by
  · exact Prod.Lex.right _ (by omega)
  · exact Prod.Lex.left _ _ (by simp only [List.length_cons]; omega)
  · exact Prod.Lex.left _ _ (by simp only [List.length_cons]; omega)
  · exact Prod.Lex.right _ (by omega)

/-- Statements up to the end of the input or to a token of one of the kinds. -/
def statementsFrom (ending : Except Diagnostic Token) (stops : List TokenKind) :
    (tokens : List Token) → Parsed (List Statement) (tokens.length + 1)
  | [] => settle ending [] []
  | token :: rest =>
      if token.kind ∈ stops then
        .done [] (token :: rest) (Nat.lt_succ_self _)
      else
        (statementFrom ending (token :: rest)).andThen fun first after _ =>
          (statementsFrom ending stops after).andThen fun others last _ =>
            .done (first :: others) last (by omega)
termination_by tokens => (tokens.length, 1)
decreasing_by
  · exact Prod.Lex.right _ (by omega)
  · exact Prod.Lex.left _ _ (by assumption)

end

/-! ## Outcomes -/

/-- Read an expression of a layer off the front of a list of tokens. -/
def layer (ending : Except Diagnostic Token) (level : Layer) (tokens : List Token) :
    Except Diagnostic (Expression × List Token) := (layerFrom ending level tokens).result

/-- Read a list of tokens as a program. -/
def program (ending : Except Diagnostic Token) (tokens : List Token) :
    Except Diagnostic (List Statement) := (statementsFrom ending [] tokens).result.map Prod.fst

end Scriptlet.Descent
