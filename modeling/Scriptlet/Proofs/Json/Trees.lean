import Scriptlet.Proofs.Json.Text
import Scriptlet.Reader.Program
import Scriptlet.Tree.Written

/-!
# Trees and their printed form

A printed tree can have come from no other tree (`Block.toText_toJson_injective`).  Text determines
the value that it shows, so what is left are the values: every node says what it is, all that a node
holds stands in one of its members, and an absent last branch is shown as something that no branch
is shown as.
-/

namespace Scriptlet

/-! ## Tokens and expressions -/

variable {position otherPosition : Position} {span otherSpan : Span} {token otherToken : Token}

theorem Position.toJson_inj (equal : position.toJson = otherPosition.toJson) :
    position = otherPosition := by
  cases position
  cases otherPosition
  simpa [toJson, UInt32.toNat_inj] using equal

theorem Span.toJson_inj (equal : span.toJson = otherSpan.toJson) : span = otherSpan := by
  cases span with
  | mk start stop =>
      cases otherSpan with
      | mk otherStart otherStop =>
          simp only [toJson, Json.object.injEq, List.cons.injEq, Prod.mk.injEq, true_and,
            and_true] at equal
          rw [Position.toJson_inj equal.1, Position.toJson_inj equal.2]

theorem Token.toJson_inj (equal : token.toJson = otherToken.toJson) : token = otherToken := by
  cases token with
  | mk kind value span =>
      cases otherToken with
      | mk otherKind otherValue otherSpan =>
          simp only [toJson, Json.object.injEq, List.cons.injEq, Prod.mk.injEq, Json.text.injEq,
            true_and, and_true] at equal
          obtain ⟨kinds, rfl, spans⟩ := equal
          rw [TokenKind.name_injective kinds, Span.toJson_inj spans]

theorem Expression.toJson_inj {left right : Expression} (equal : left.toJson = right.toJson) :
    left = right := by
  induction left generalizing right with
  | binary operator first second firstIH secondIH =>
      cases right with
      | binary =>
          simp only [toJson, Json.object.injEq, List.cons.injEq, Prod.mk.injEq, true_and,
            and_true] at equal
          obtain ⟨operators, firsts, seconds⟩ := equal
          rw [Token.toJson_inj operators, firstIH firsts, secondIH seconds]
      | _ => simp [toJson] at equal
  | unary operator operand operandIH =>
      cases right with
      | unary =>
          simp only [toJson, Json.object.injEq, List.cons.injEq, Prod.mk.injEq, true_and,
            and_true] at equal
          rw [Token.toJson_inj equal.1, operandIH equal.2]
      | _ => simp [toJson] at equal
  | atom token =>
      cases right with
      | atom =>
          simp only [toJson, Json.object.injEq, List.cons.injEq, Prod.mk.injEq, true_and,
            and_true] at equal
          rw [Token.toJson_inj equal]
      | _ => simp [toJson] at equal
  | call callee =>
      cases right with
      | call =>
          simp only [toJson, Json.object.injEq, List.cons.injEq, Prod.mk.injEq, true_and,
            and_true] at equal
          rw [Token.toJson_inj equal]
      | _ => simp [toJson] at equal

/-! ## Statements -/

theorem Json.labelled_inj {label otherLabel : String} {members others : List (String × Json)}
    (equal : labelled label members = labelled otherLabel others) :
    label = otherLabel ∧ members = others := by
  simpa [labelled] using equal

mutual

/-- A statement is determined by what it is called and by its members. -/
theorem Statement.toJson_inj : (left right : Statement) → left.toJson = right.toJson → left = right
  | .block body _, right, equal => by
      obtain ⟨labels, members⟩ := Json.labelled_inj equal
      cases right with
      | block others =>
          simp only [Statement.members, List.cons.injEq, Prod.mk.injEq, Json.list.injEq, true_and,
            and_true] at members
          rw [Statement.allToJson_inj body others members.1, Span.toJson_inj members.2]
      | _ => simp [Statement.label] at labels
  | .assignment .., right, equal => by
      obtain ⟨labels, members⟩ := Json.labelled_inj equal
      cases right with
      | assignment =>
          simp only [Statement.members, List.cons.injEq, Prod.mk.injEq, true_and,
            and_true] at members
          obtain ⟨targets, values, spans⟩ := members
          rw [Token.toJson_inj targets, Expression.toJson_inj values, Span.toJson_inj spans]
      | _ => simp [Statement.label] at labels
  | .conditional _ branch alternatives _, right, equal => by
      obtain ⟨labels, members⟩ := Json.labelled_inj equal
      cases right with
      | conditional _ otherBranch others =>
          simp only [Statement.members, List.cons.injEq, Prod.mk.injEq, Json.list.injEq, true_and,
            and_true] at members
          obtain ⟨conditions, branches, clauses, lasts, spans⟩ := members
          rw [Expression.toJson_inj conditions, Statement.toJson_inj branch otherBranch branches,
            Alternatives.toJson_inj alternatives others clauses lasts, Span.toJson_inj spans]
      | _ => simp [Statement.label] at labels
  | .loop _ body _, right, equal => by
      obtain ⟨labels, members⟩ := Json.labelled_inj equal
      cases right with
      | loop _ otherBody =>
          simp only [Statement.members, List.cons.injEq, Prod.mk.injEq, true_and,
            and_true] at members
          obtain ⟨conditions, bodies, spans⟩ := members
          rw [Expression.toJson_inj conditions, Statement.toJson_inj body otherBody bodies,
            Span.toJson_inj spans]
      | _ => simp [Statement.label] at labels

theorem Statement.allToJson_inj : (left right : List Statement) →
    Statement.allToJson left = Statement.allToJson right → left = right
  | [], [], _ => rfl
  | [], _ :: _, equal => by simp [Statement.allToJson] at equal
  | _ :: _, [], equal => by simp [Statement.allToJson] at equal
  | first :: others, otherFirst :: rest, equal => by
      simp only [Statement.allToJson, List.cons.injEq] at equal
      rw [Statement.toJson_inj first otherFirst equal.1,
        Statement.allToJson_inj others rest equal.2]

/-- Alternatives are determined by their clauses and their last branch.  A last branch that is not
there is shown as no statement is. -/
theorem Alternatives.toJson_inj : (left right : Alternatives) →
    left.clausesToJson = right.clausesToJson → left.lastToJson = right.lastToJson → left = right
  | .nothing, right, clauses, lasts => by
      cases right with
      | nothing => rfl
      | otherwise => simp [Alternatives.lastToJson, Json.labelled] at lasts
      | elseIf => simp [Alternatives.clausesToJson] at clauses
  | .otherwise branch, right, clauses, lasts => by
      cases right with
      | nothing => simp [Alternatives.lastToJson, Json.labelled] at lasts
      | otherwise otherBranch =>
          simp only [Alternatives.lastToJson] at lasts
          rw [Statement.toJson_inj branch otherBranch lasts]
      | elseIf => simp [Alternatives.clausesToJson] at clauses
  | .elseIf _ branch _ others, right, clauses, lasts => by
      cases right with
      | nothing => simp [Alternatives.clausesToJson] at clauses
      | otherwise => simp [Alternatives.clausesToJson] at clauses
      | elseIf _ otherBranch _ rest =>
          simp only [Alternatives.clausesToJson, List.cons.injEq, Json.object.injEq,
            Prod.mk.injEq, true_and, and_true] at clauses
          simp only [Alternatives.lastToJson] at lasts
          obtain ⟨⟨conditions, branches, spans⟩, further⟩ := clauses
          rw [Expression.toJson_inj conditions, Statement.toJson_inj branch otherBranch branches,
            Span.toJson_inj spans, Alternatives.toJson_inj others rest further lasts]

end

/-- A program does not say what it is, but there is nothing else that it could be. -/
theorem Block.toJson_inj {left right : Block} (equal : left.toJson = right.toJson) :
    left = right := by
  have labelled : left.toStatement.toJson = right.toStatement.toJson :=
    congrArg (Json.labelled "Block") (Json.object.inj equal)
  have same := Statement.toJson_inj _ _ labelled
  cases left
  cases right
  cases same
  rfl

/-- The printed form of a tree determines the tree, with the kind, the text and the span of every
token, and with every clause and branch that is there. -/
theorem Block.toText_toJson_injective :
    Function.Injective fun block : Block => block.toJson.toText :=
  fun _ _ equal => Block.toJson_inj (Json.toText_inj equal)

/-- A literal that looks as if its member ended inside it. -/
theorem Block.toText_toJson_injective_imitation :
    ∃ root, parse "$x = \"\\\"\x7d, \x7b\";" none = .ok root ∧
      ∀ other : Block, other.toJson.toText = root.toJson.toText → other = root := by
  have reads : (parse "$x = \"\\\"\x7d, \x7b\";" none).isOk = true := by decide +kernel
  cases read : parse "$x = \"\\\"\x7d, \x7b\";" none with
  | error halt =>
      rw [read] at reads
      cases reads
  | ok root => exact ⟨root, rfl, fun _ same => Block.toText_toJson_injective same⟩

end Scriptlet
