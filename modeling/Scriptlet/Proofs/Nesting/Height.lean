import Scriptlet.Proofs.Derivation.Productions
import Scriptlet.Proofs.Lexing.Spacing

/-!
# The height of trees

What the limit on nesting says about trees.  Productions open other productions for every child of a
node but one: the left operand of a binary operator is there before the operator is met, and a loop
puts operator after operator on top of it.  So the limit bounds the height of a tree if steps to the
left are not counted (`parse_height_le`), and it does not bound the height otherwise
(`parse_height_unbounded`).
-/

namespace Scriptlet

/-- The nodes on the longest path down, where a step to the left operand of a binary operator counts
as `left` and every other step as one. -/
def Expression.height (left : Nat) : Expression → Nat
  | .binary _ first second => max (first.height left + left) (second.height left + 1)
  | .unary _ operand => operand.height left + 1
  | .atom _ | .call _ => 1

mutual

/-- The nodes on the longest path down a statement, conditions and values included. -/
def Statement.height (left : Nat) : Statement → Nat
  | .block body _ => Statement.heightOfAll left body + 1
  | .assignment _ value _ => value.height left + 1
  | .conditional condition branch alternatives _ =>
      max (max (condition.height left) (branch.height left)) (alternatives.height left) + 1
  | .loop condition body _ => max (condition.height left) (body.height left) + 1
  termination_by structural statement => statement

/-- The height of the highest statement. -/
def Statement.heightOfAll (left : Nat) : List Statement → Nat
  | [] => 0
  | first :: others => max (first.height left) (Statement.heightOfAll left others)
  termination_by structural statements => statements

/-- The height of the highest branch or condition.  A clause is no node of its own. -/
def Alternatives.height (left : Nat) : Alternatives → Nat
  | .nothing => 0
  | .otherwise branch => branch.height left
  | .elseIf condition branch _ others =>
      max (max (condition.height left) (branch.height left)) (others.height left)
  termination_by structural alternatives => alternatives

end

/-! ## Heights without steps to the left -/

namespace Part

/-- Not counting steps to the left, the part is no higher than `levels` nested productions can make
it. -/
def LowFor (levels : Nat) : Part → Prop
  | .expression _ value => value.height 0 ≤ levels
  | .operand value => value.height 0 ≤ levels + 1
  | .group value => value.height 0 ≤ levels
  | .joined _ left whole => left.height 0 ≤ levels + 1 → whole.height 0 ≤ levels + 1
  | .statement value => value.height 0 ≤ levels
  | .alternatives value => value.height 0 ≤ levels
  | .statements values => Statement.heightOfAll 0 values ≤ levels

theorem From.lowFor {part : Part} {levels : Nat} {tokens rest : List Token}
    (derives : part.From levels tokens rest) : part.LowFor levels := by
  induction derives with
  | literal | name | call => exact Nat.le_add_left _ _
  | unary _ _ ih => exact Nat.succ_le_succ ih
  | grouped _ ih => exact Nat.le_succ_of_le ih
  | group _ _ _ ih => exact ih
  | last => exact id
  | further _ _ _ _ operandIH othersIH =>
      exact fun low => othersIH (Nat.max_le.mpr ⟨low, Nat.succ_le_succ operandIH⟩)
  | expression _ _ firstIH othersIH => exact othersIH firstIH
  | assignment _ _ _ _ ih => exact Nat.succ_le_succ ih
  | conditional _ _ _ _ askedIH firstIH othersIH =>
      exact Nat.succ_le_succ (Nat.max_le.mpr ⟨Nat.max_le.mpr ⟨askedIH, firstIH⟩, othersIH⟩)
  | loop _ _ _ askedIH bodyIH => exact Nat.succ_le_succ (Nat.max_le.mpr ⟨askedIH, bodyIH⟩)
  | block _ _ _ ih => exact Nat.succ_le_succ ih
  | nothing | nil => exact Nat.zero_le _
  | otherwise _ _ _ ih => exact ih
  | elseIf _ _ _ _ _ askedIH innerIH othersIH =>
      exact Nat.max_le.mpr ⟨Nat.max_le.mpr ⟨askedIH, innerIH⟩, othersIH⟩
  | cons _ _ firstIH othersIH => exact Nat.max_le.mpr ⟨firstIH, othersIH⟩

end Part

/-- Without its steps to the left, no path down a program has more nodes than productions may nest,
and the program itself. -/
theorem parse_height_le {source : String} {file : Option String} {root : Block}
    (read : parse source file = .ok root) :
    root.toStatement.height 0 ≤ Parse.nestingLimit + 1 := by
  obtain ⟨tokens, _, derives, _⟩ := parse_ok_iff.mp read
  exact Nat.succ_le_succ derives.lowFor

/-- Three additions on top of each other, of which no path counts more than one. -/
theorem parse_height_le_sum :
    ∃ root, parse "while ($a) $x = !($b + 1 + 1 + 1);" none = .ok root ∧
      root.toStatement.height 0 = 6 ∧ root.toStatement.height 1 = 8 ∧
      root.toStatement.height 0 ≤ Parse.nestingLimit + 1 := by
  have heights : (parse "while ($a) $x = !($b + 1 + 1 + 1);" none).toOption.map
      (fun root => (root.toStatement.height 0, root.toStatement.height 1)) = some (6, 8) := by
    decide +kernel
  cases read : parse "while ($a) $x = !($b + 1 + 1 + 1);" none with
  | error halt =>
      rw [read] at heights
      cases heights
  | ok root =>
      rw [read] at heights
      obtain ⟨without, counted⟩ := Prod.mk.inj (Option.some.inj heights)
      exact ⟨root, rfl, without, counted, parse_height_le read⟩

/-! ## Heights with steps to the left -/

/-- A token that has been given no place in a source yet. -/
def Token.unplaced (said : TokenKind × String) : Token where
  kind := said.1
  value := said.2
  span := ⟨Place.start.inFile Cursor.unnamed, Place.start.inFile Cursor.unnamed⟩

/-- What the tokens say that set a variable to a sum. -/
def sumOfOnes (count : Nat) : List (TokenKind × String) :=
  [(.identifier .scalar .everyone, "$x"), (.assign, "="), (.integerLiteral, "1")] ++
    (List.replicate count [(TokenKind.plus, "+"), (.integerLiteral, "1")]).flatten ++
    [(.semicolon, ";")]

instance (token : Token) : Decidable token.Spells := inferInstanceAs (Decidable (_ = _))

theorem spells_sumOfOnes (count : Nat) :
    ∀ said ∈ sumOfOnes count, (Token.unplaced said).Spells := by
  refine List.forall_mem_append.mpr ⟨List.forall_mem_append.mpr ⟨?_, ?_⟩, ?_⟩
  · decide +kernel
  · have term : ∀ said ∈ [(TokenKind.plus, "+"), (.integerLiteral, "1")],
        (Token.unplaced said).Spells := by
      decide +kernel
    intro said member
    obtain ⟨_, replicated, among⟩ := List.mem_flatten.mp member
    cases List.eq_of_mem_replicate replicated
    exact term said among
  · decide +kernel

/-- Sums can be written down, however long they are. -/
theorem tokenize_sumOfOnes (count : Nat) :
    ∃ source tokens, tokenize source none = .ok tokens ∧
      tokens.map Token.content = sumOfOnes count := by
  let drafts := (sumOfOnes count).map Token.unplaced
  let gaps := List.replicate drafts.length [' ']
  have spells : ∀ token ∈ drafts, token.Spells := by
    intro token member
    obtain ⟨said, among, rfl⟩ := List.mem_map.mp member
    exact spells_sumOfOnes count said among
  have contents : drafts.map Token.content = sumOfOnes count := by
    simp [drafts, Token.content, Token.unplaced, Function.comp_def]
  obtain ⟨same, final, ended⟩ := @Cursor.stream_spellOut drafts spells [] gaps (by simp [gaps])
    (by simp [gaps, Lexeme.isSpace]) (by simp [gaps]) .start Cursor.unnamed
  refine ⟨String.ofList (spellOut [] drafts gaps), _, ?_, same.trans contents⟩
  rw [tokenize, Cursor.drain_eq_items, TokenStream.gather_items, Cursor.ofSource,
    String.toList_ofList]
  simp only [Option.getD_none, ended]
  rfl

namespace Part

/-- However many terms are added, no more than two productions are open at a time, and each term
makes the tree higher. -/
theorem From.sum {closing : Token} {rest : List Token}
    (ends : ∀ power, NextNot (Grammar.Joins power) (closing :: rest)) (count : Nat)
    (tokens : List Token) (left : Expression)
    (kinds : tokens.map Token.kind =
      (List.replicate count [TokenKind.plus, .integerLiteral]).flatten) :
    NextNot (Grammar.Joins .additive) (tokens ++ closing :: rest) ∧
      ∃ whole, (Part.joined .lowest left whole).From 1 (tokens ++ closing :: rest)
          (closing :: rest) ∧
        left.height 1 + count ≤ whole.height 1 := by
  induction count generalizing tokens left with
  | zero =>
      rw [List.map_eq_nil_iff.mp kinds]
      exact ⟨ends _, left, .last (ends _), Nat.le_refl _⟩
  | succ count ih =>
      obtain ⟨operator, _, rfl, plus, one⟩ := List.map_eq_cons_iff.mp kinds
      obtain ⟨term, others, rfl, integer, onward⟩ := List.map_eq_cons_iff.mp one
      obtain ⟨stops, whole, further, high⟩ :=
        ih others (.binary operator left (.atom term)) onward
      have binds : Grammar.standard.powers operator.kind = some .additive := by
        rw [plus]
        rfl
      have operand : (Part.expression .additive (.atom term)).From 1
          (term :: (others ++ closing :: rest)) (others ++ closing :: rest) :=
        .expression (.literal (by rw [integer]; rfl)) (.last stops)
      refine ⟨?_, whole, .further binds (by decide) operand further, ?_⟩
      · rintro token ⟨⟩ ⟨next, same, stronger⟩
        cases binds.symm.trans same
        exact stronger (Nat.le_refl _)
      · have higher : left.height 1 + 1 ≤ (Expression.binary operator left (.atom term)).height 1 :=
          Nat.le_max_left _ _
        omega

/-- The statement takes three levels, however high it is. -/
theorem From.sumOfOnes {count : Nat} {tokens : List Token}
    (said : tokens.map Token.content = sumOfOnes count) :
    ∃ value, (Part.statement value).From 3 tokens [] ∧ count < value.height 1 := by
  have kinds : tokens.map Token.kind = .identifier .scalar .everyone :: .assign ::
      .integerLiteral ::
        ((List.replicate count [TokenKind.plus, .integerLiteral]).flatten ++ [.semicolon]) := by
    have firsts := congrArg (List.map Prod.fst) said
    simpa [Scriptlet.sumOfOnes, Token.content, Function.comp_def] using firsts
  obtain ⟨target, _, rfl, named, behindTarget⟩ := List.map_eq_cons_iff.mp kinds
  obtain ⟨equals, _, rfl, sets, behindEquals⟩ := List.map_eq_cons_iff.mp behindTarget
  obtain ⟨one, _, rfl, integer, behindOne⟩ := List.map_eq_cons_iff.mp behindEquals
  obtain ⟨terms, _, rfl, added, behindTerms⟩ := List.map_eq_append_iff.mp behindOne
  obtain ⟨closing, rfl, closes⟩ := List.map_eq_singleton_iff.mp behindTerms
  have ends : ∀ power, NextNot (Grammar.Joins power) [closing] := by
    rintro power token ⟨⟩ ⟨next, binds, _⟩
    rw [closes] at binds
    cases binds
  obtain ⟨_, whole, joined, high⟩ := From.sum ends count terms (.atom one) added
  refine ⟨_, .assignment (by rw [named]; decide) sets
    (.expression (.literal (by rw [integer]; rfl)) joined) closes, ?_⟩
  rw [Statement.height]
  omega

end Part

/-- Programs may be as high as one likes. -/
theorem exists_parse_height_gt (count : Nat) :
    ∃ source root, parse source none = .ok root ∧ count < root.toStatement.height 1 := by
  obtain ⟨source, tokens, lexed, said⟩ := tokenize_sumOfOnes count
  obtain ⟨value, derives, high⟩ := Part.From.sumOfOnes said
  refine ⟨source, ⟨[value], _⟩,
    parse_ok_iff.mpr ⟨tokens, lexed, .cons (derives.mono (by decide)) .nil, rfl⟩, ?_⟩
  exact Nat.lt_succ_of_lt (Nat.lt_of_lt_of_le high (Nat.le_max_left _ _))

/-- The limit on nesting puts no bound on the height of programs. -/
theorem parse_height_unbounded :
    ¬ ∃ bound, ∀ source file root, parse source file = .ok root →
      root.toStatement.height 1 ≤ bound := by
  rintro ⟨bound, bounds⟩
  obtain ⟨source, root, read, high⟩ := exists_parse_height_gt bound
  exact Nat.not_le_of_lt high (bounds source none root read)

end Scriptlet
