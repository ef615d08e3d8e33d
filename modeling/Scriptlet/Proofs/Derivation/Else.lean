import Scriptlet.Proofs.Derivation.Extent

/-!
# Else binds to the nearest open conditional

A statement is open if one more `else` behind it would belong to it.  Reading takes every `else`
that it can, so an open statement is never followed by one; and wherever a conditional has an
`else`, the branch in front of it is not open.
-/

namespace Scriptlet

mutual

/-- Whether an `else` behind the statement would belong to it: a conditional without a last branch,
or with an open one, or a loop with an open body. -/
def Statement.isOpen : Statement → Bool
  | .block .. | .assignment .. => false
  | .conditional _ _ alternatives _ => alternatives.areOpen
  | .loop _ body _ => body.isOpen
  termination_by structural statement => statement

/-- Whether an `else` behind the alternatives would belong to them. -/
def Alternatives.areOpen : Alternatives → Bool
  | .nothing => true
  | .otherwise branch => branch.isOpen
  | .elseIf _ _ _ others => others.areOpen
  termination_by structural alternatives => alternatives

end

/-- Alternatives are open if there is no last branch, or an open one. -/
theorem Alternatives.areOpen_eq (alternatives : Alternatives) :
    alternatives.areOpen = (alternatives.last?.map Statement.isOpen).getD true := by
  fun_induction Alternatives.last? alternatives with
  | case1 => rfl
  | case2 => rfl
  | case3 _ _ _ others ih => rw [areOpen, ih]

/-- What an `else` belongs to is not open without it. -/
structure Alternatives.BindNearest (branch : Statement) (alternatives : Alternatives) : Prop where
  last : ∀ other ∈ alternatives.last?, other.rule ≠ .conditional
  branch : alternatives.clauses ≠ [] ∨ alternatives.last? ≠ none → branch.isOpen = false
  clauses : ∀ before clause after, alternatives.clauses = before ++ clause :: after →
    after ≠ [] ∨ alternatives.last? ≠ none → clause.branch.isOpen = false

namespace Part

/-- The part would take an `else` behind it. -/
def Open : Part → Prop
  | .statement value => value.isOpen = true
  | .alternatives value => value.areOpen = true
  | _ => False

namespace From

variable {part : Part} {levels : Nat} {tokens rest : List Token}

/-- No `else` follows what would take it. -/
theorem nextNot_else (derives : part.From levels tokens rest) (isOpen : part.Open) :
    NextNot (· = .elseWord) rest := by
  induction derives with
  | literal | name | call | unary | grouped | group | last | further | expression => cases isOpen
  | assignment | block => cases isOpen
  | conditional _ _ _ _ _ _ othersIH => exact othersIH isOpen
  | loop _ _ _ _ bodyIH => exact bodyIH isOpen
  | nothing ends => exact ends
  | otherwise _ _ _ ih => exact ih isOpen
  | elseIf _ _ _ _ _ _ _ othersIH => exact othersIH isOpen
  | nil | cons => cases isOpen

/-- Alternatives that are there begin with an `else`, so what stands before them is not open. -/
theorem not_open_before {alternatives : Alternatives} {before : Statement} {outer : Nat}
    {earlier : List Token}
    (front : (Part.statement before).From outer earlier tokens)
    (derives : (Part.alternatives alternatives).From levels tokens rest)
    (present : alternatives.clauses ≠ [] ∨ alternatives.last? ≠ none) :
    before.isOpen = false := by
  refine Bool.eq_false_iff.mpr fun isOpen => ?_
  have next := front.nextNot_else isOpen
  cases derives with
  | nothing => simp [Alternatives.clauses, Alternatives.last?] at present
  | otherwise begins _ _ => exact next _ rfl begins
  | elseIf begins _ _ _ _ => exact next _ rfl begins

/-- What begins otherwise than with `if` is no conditional. -/
theorem rule_ne_conditional {statement : Statement} (bare : NextNot (· = .ifWord) tokens)
    (derives : (Part.statement statement).From levels tokens rest) :
    statement.rule ≠ .conditional := by
  intro conditional
  cases derives with
  | conditional begins _ _ _ => exact bare _ rfl begins
  | assignment | loop | block => cases conditional

theorem last_rule_ne {alternatives : Alternatives}
    (derives : (Part.alternatives alternatives).From levels tokens rest) :
    ∀ other ∈ alternatives.last?, other.rule ≠ .conditional := by
  fun_induction Alternatives.last? alternatives generalizing tokens with
  | case1 => simp
  | case2 branch =>
      cases derives with
      | otherwise _ bare inner =>
          rintro other ⟨⟩
          exact inner.rule_ne_conditional bare
  | case3 _ _ _ others ih =>
      cases derives with
      | elseIf _ _ _ _ further => exact ih further

theorem clause_not_open {alternatives : Alternatives}
    (derives : (Part.alternatives alternatives).From levels tokens rest) :
    ∀ before clause after, alternatives.clauses = before ++ clause :: after →
      after ≠ [] ∨ alternatives.last? ≠ none → clause.branch.isOpen = false := by
  fun_induction Alternatives.clauses alternatives generalizing tokens with
  | case1 | case2 => simp
  | case3 condition branch span others ih =>
      cases derives with
      | elseIf _ _ _ inner further =>
          intro before clause after split present
          cases before with
          | nil =>
              rcases List.cons.inj split with ⟨rfl, rfl⟩
              exact inner.not_open_before further present
          | cons first before =>
              rcases List.cons.inj split with ⟨_, tail⟩
              exact ih further before clause after tail present

theorem bindNearest {condition : Expression} {branch : Statement} {alternatives : Alternatives}
    {span : Span}
    (derives : (Part.statement (.conditional condition branch alternatives span)).From
      levels tokens rest) :
    alternatives.BindNearest branch := by
  cases derives with
  | conditional _ _ first others =>
      exact ⟨others.last_rule_ne, first.not_open_before others, others.clause_not_open⟩

end From

end Part

/-- Every `else` of a program belongs to the nearest conditional that is open before it. -/
theorem parse_bindNearest {source : String} {file : Option String} {root : Block}
    (read : parse source file = .ok root) :
    ∃ tokens, tokenize source file = .ok tokens ∧
      ∀ condition branch alternatives span,
        .conditional condition branch alternatives span ∈ root.nodes →
        alternatives.BindNearest branch ∧
          ∃ before used after, tokens = before ++ used ++ after ∧
            (Statement.conditional condition branch alternatives span).StandsOn used ∧
            ((Statement.conditional condition branch alternatives span).isOpen = true →
              NextNot (· = .elseWord) after) := by
  rcases parse_ok_iff.mp read with ⟨tokens, lexed, derives, _⟩
  refine ⟨tokens, lexed, fun condition branch alternatives span member => ?_⟩
  rcases Block.exists_standsOn derives member with ⟨before, used, after, split, stands, own⟩
  exact ⟨own.bindNearest, before, used, after, split, stands, own.nextNot_else⟩

/-- A conditional with an `else` is open if its last branch is a loop over an open one. -/
theorem parse_bindNearest_loop :
    ∃ root, parse "if ($a) { if ($b) $x = 1; } else while ($c) if ($d) $y = 2; $z = 3;" none =
        .ok root ∧
      ∃ tokens, tokenize "if ($a) { if ($b) $x = 1; } else while ($c) if ($d) $y = 2; $z = 3;"
          none = .ok tokens ∧
        ∃ condition branch alternatives span,
          .conditional condition branch alternatives span ∈ root.nodes ∧
          (Statement.conditional condition branch alternatives span).isOpen = true ∧
          alternatives.BindNearest branch ∧
          ∃ before used after, tokens = before ++ used ++ after ∧
            (Statement.conditional condition branch alternatives span).StandsOn used ∧
            NextNot (· = .elseWord) after := by
  have found :
      (parse "if ($a) { if ($b) $x = 1; } else while ($c) if ($d) $y = 2; $z = 3;"
        none).toOption.any
        (fun root => root.nodes.any fun node =>
          node.rule = .conditional && node.isOpen) = true := by
    decide +kernel
  cases read : parse "if ($a) { if ($b) $x = 1; } else while ($c) if ($d) $y = 2; $z = 3;" none with
  | error halt =>
      rw [read] at found
      cases found
  | ok root =>
      rw [read] at found
      rcases List.any_eq_true.mp found with ⟨node, member, both⟩
      rw [Bool.and_eq_true, decide_eq_true_eq] at both
      rcases parse_bindNearest read with ⟨tokens, lexed, every⟩
      cases node with
      | conditional condition branch alternatives span =>
          rcases every _ _ _ _ member with ⟨binds, before, used, after, split, stands, next⟩
          exact ⟨root, rfl, tokens, lexed, condition, branch, alternatives, span, member, both.2,
            binds, before, used, after, split, stands, next both.2⟩
      | block | assignment | loop => cases both.1

end Scriptlet
