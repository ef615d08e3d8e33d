import Scriptlet.Proofs.Derivation.Productions

/-!
# Statements inside statements

All the statements that a tree has in it, at any depth (`Statement.nodes`), and the tokens that it
keeps, in the order of the source (`Statement.tokens`).  Every statement in a tree has a derivation
of its own from a piece of the tokens (`From.of_mem_nodes`), so a property of all of them has to be
shown of one derivation at a time.
-/

namespace Scriptlet

/-! ## Statements and tokens of a tree -/

mutual

/-- The statement and all statements inside it, in the order of the source. -/
def Statement.nodes : Statement → List Statement
  | .block body span => .block body span :: Statement.nodesOfAll body
  | .assignment target value span => [.assignment target value span]
  | .conditional condition branch alternatives span =>
      .conditional condition branch alternatives span :: (branch.nodes ++ alternatives.nodes)
  | .loop condition body span => .loop condition body span :: body.nodes
  termination_by structural statement => statement

/-- All statements in a list of statements. -/
def Statement.nodesOfAll : List Statement → List Statement
  | [] => []
  | first :: others => first.nodes ++ Statement.nodesOfAll others
  termination_by structural statements => statements

/-- All statements in the alternatives of a conditional. -/
def Alternatives.nodes : Alternatives → List Statement
  | .nothing => []
  | .otherwise branch => branch.nodes
  | .elseIf _ branch _ others => branch.nodes ++ others.nodes
  termination_by structural alternatives => alternatives

end

/-- All statements of a program. -/
def Block.nodes (root : Block) : List Statement := Statement.nodesOfAll root.body

/-- The tokens that an expression keeps, in the order of the source. -/
def Expression.tokens : Expression → List Token
  | .binary operator left right => left.tokens ++ operator :: right.tokens
  | .unary operator operand => operator :: operand.tokens
  | .atom token => [token]
  | .call callee => [callee]

mutual

/-- The tokens that a statement keeps, in the order of the source. -/
def Statement.tokens : Statement → List Token
  | .block body _ => Statement.tokensOfAll body
  | .assignment target value _ => target :: value.tokens
  | .conditional condition branch alternatives _ =>
      condition.tokens ++ branch.tokens ++ alternatives.tokens
  | .loop condition body _ => condition.tokens ++ body.tokens
  termination_by structural statement => statement

/-- The tokens that a list of statements keeps. -/
def Statement.tokensOfAll : List Statement → List Token
  | [] => []
  | first :: others => first.tokens ++ Statement.tokensOfAll others
  termination_by structural statements => statements

/-- The tokens that the alternatives of a conditional keep. -/
def Alternatives.tokens : Alternatives → List Token
  | .nothing => []
  | .otherwise branch => branch.tokens
  | .elseIf condition branch _ others => condition.tokens ++ branch.tokens ++ others.tokens
  termination_by structural alternatives => alternatives

end

/-- The tokens that a program keeps. -/
def Block.tokens (root : Block) : List Token := Statement.tokensOfAll root.body

namespace Statement

/-- The `else if` clauses of a conditional. -/
def clauses : Statement → List ElseIf
  | .conditional _ _ alternatives _ => alternatives.clauses
  | _ => []

/-- The branch of a conditional after its last `else`. -/
def last? : Statement → Option Statement
  | .conditional _ _ alternatives _ => alternatives.last?
  | _ => none

end Statement

namespace Part

/-- The statements in a part. -/
def nodes : Part → List Statement
  | .statement value => value.nodes
  | .alternatives value => value.nodes
  | .statements values => Statement.nodesOfAll values
  | .expression .. | .operand .. | .group .. | .joined .. => []

/-- The statement is read from a piece of the tokens in front of `rest`. -/
def ReadInside (node : Statement) (levels : Nat) (tokens rest : List Token) : Prop :=
  ∃ before own after, tokens = before ++ own ∧
    (Part.statement node).From levels own (after ++ rest)

namespace ReadInside

variable {node : Statement} {levels : Nat} {tokens rest : List Token}

/-- A piece of a piece is a piece. -/
theorem inside (reads : ReadInside node levels tokens rest) (before after : List Token)
    {more : Nat} (enough : levels ≤ more) {outer last : List Token}
    (front : outer = before ++ tokens) (back : rest = after ++ last) :
    ReadInside node more outer last := by
  rcases reads with ⟨ahead, own, behind, rfl, derives⟩
  refine ⟨before ++ ahead, own, behind ++ after, by simp [front], ?_⟩
  rw [List.append_assoc, ← back]
  exact derives.mono enough

end ReadInside

/-- Every statement in a part has a derivation of its own, from a piece of the tokens. -/
theorem From.of_mem_nodes {part : Part} {levels : Nat} {tokens rest : List Token}
    (derives : part.From levels tokens rest) {node : Statement} (member : node ∈ part.nodes) :
    ReadInside node levels tokens rest := by
  have whole : ∀ {statement : Statement} {levels : Nat} {tokens rest : List Token},
      (Part.statement statement).From levels tokens rest →
      ReadInside statement levels tokens rest := by
    intro statement levels tokens rest derives
    exact ⟨[], tokens, [], rfl, derives⟩
  induction derives with
  | literal | name | call | unary | grouped | group | last | further | expression => cases member
  | assignment named sets given closes =>
      cases List.mem_singleton.mp member
      exact whole (.assignment named sets given closes)
  | @conditional levels start condition branch alternatives tokens middle later rest begins asked
      first others _ firstIH othersIH =>
      rcases asked.replace with ⟨used, rfl, _⟩
      rcases first.replace with ⟨inner, rfl, _⟩
      rcases others.replace with ⟨behind, rfl, _⟩
      rcases List.mem_cons.mp member with rfl | inside
      · exact whole (.conditional begins asked first others)
      · rcases List.mem_append.mp inside with inBranch | inOthers
        · exact (firstIH inBranch).inside (start :: used) behind (Nat.le_succ _) (by simp) rfl
        · exact (othersIH inOthers).inside (start :: used ++ inner) [] (Nat.le_succ _) (by simp) rfl
  | @loop levels start condition body tokens middle rest begins asked repeats _ ih =>
      rcases asked.replace with ⟨used, rfl, _⟩
      rcases List.mem_cons.mp member with rfl | inside
      · exact whole (.loop begins asked repeats)
      · exact (ih inside).inside (start :: used) [] (Nat.le_succ _) (by simp) rfl
  | @block levels opening closing body tokens rest opens inner closes ih =>
      rcases List.mem_cons.mp member with rfl | inside
      · exact whole (.block opens inner closes)
      · exact (ih inside).inside [opening] [closing] (Nat.le_succ _) rfl rfl
  | nothing => cases member
  | @otherwise levels start branch tokens rest begins bare inner ih =>
      exact (ih member).inside [start] [] (Nat.le_refl _) rfl rfl
  | @elseIf levels start second condition branch chain tokens middle later rest begins asks asked
      inner further _ innerIH furtherIH =>
      rcases asked.replace with ⟨used, rfl, _⟩
      rcases inner.replace with ⟨own, rfl, _⟩
      rcases further.replace with ⟨behind, rfl, _⟩
      rcases List.mem_append.mp member with inBranch | inOthers
      · exact (innerIH inBranch).inside (start :: second :: used) behind (Nat.le_refl _)
          (by simp) rfl
      · exact (furtherIH inOthers).inside (start :: second :: used ++ own) [] (Nat.le_refl _)
          (by simp) rfl
  | nil => cases member
  | @cons levels first others tokens middle rest inner further innerIH furtherIH =>
      rcases inner.replace with ⟨own, rfl, _⟩
      rcases further.replace with ⟨behind, rfl, _⟩
      rcases List.mem_append.mp member with inFirst | inOthers
      · exact (innerIH inFirst).inside [] behind (Nat.le_refl _) (by simp) rfl
      · exact (furtherIH inOthers).inside own [] (Nat.le_refl _) rfl rfl

end Part

end Scriptlet
