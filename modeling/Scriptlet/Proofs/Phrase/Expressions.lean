import Scriptlet.Proofs.Phrase.Recognition

/-!
# Recognising expressions

Recursive descent recognises the categories of expressions, provided that nothing follows them that
could still belong to them: no operator that a layer reaches, and no parenthesis, which would make a
call out of a variable.
-/

namespace Scriptlet

open Descent

/-- Further operands end here, or an operator, an operand and further operands follow. -/
theorem Phrase.followedBy_further {operators word : List TokenKind} {operand : Category}
    {after : List TokenKind → Prop} :
    (Phrase.further operators operand).FollowedBy after word ↔
      after word ∨ (Phrase.token operators).FollowedBy ((Phrase.category operand).FollowedBy
        ((Phrase.further operators operand).FollowedBy after)) word := by
  rw [further, followedBy_repeated, followedBy_sequence]

namespace Descent.Layer

/-- The category of a layer. -/
def category : Layer → Category
  | .logicalOr => .logicalOr
  | .logicalAnd => .logicalAnd
  | .additive => .additive
  | .multiplicative => .multiplicative
  | .unary => .unary

theorem phrase_category {layer : Layer} (binary : layer ≠ .unary) :
    layer.category.phrase = .joined layer.operators layer.tighter.category := by
  cases layer with
  | unary => exact absurd rfl binary
  | _ => rfl

/-- Nothing that may follow can belong to an expression of the layer. -/
def Permits (layer : Layer) (after : List TokenKind → Prop) : Prop :=
  ∀ kind rest, after (kind :: rest) → kind ≠ .openParen ∧ kind ∉ layer.reach

/-- Behind an operand of a layer stand more operands of it or what may follow the layer. -/
theorem permits_tighter {layer : Layer} (binary : layer ≠ .unary)
    {after : List TokenKind → Prop} (permits : layer.Permits after) :
    layer.tighter.Permits
      ((Phrase.further layer.operators layer.tighter.category).FollowedBy after) := by
  intro kind rest followed
  rw [Phrase.followedBy_further, Phrase.followedBy_token_cons] at followed
  rcases followed with holds | ⟨member, _⟩
  · rcases permits kind rest holds with ⟨closed, outside⟩
    refine ⟨closed, fun reached => outside ?_⟩
    rw [mem_reach_iff binary]
    exact .inr reached
  · refine ⟨?_, not_mem_reach_tighter member⟩
    rintro rfl
    revert member
    cases layer <;> decide

/-- A closing parenthesis and a semicolon end every expression. -/
theorem permits_only (layer : Layer) {kind : TokenKind}
    (closes : kind = .closeParen ∨ kind = .semicolon) (after : List TokenKind → Prop) :
    layer.Permits ((Phrase.only kind).FollowedBy after) := by
  intro head rest followed
  rw [Phrase.followedBy_only_cons] at followed
  rcases followed with ⟨rfl, _⟩
  obtain rfl | rfl := closes <;> cases layer <;> decide

end Descent.Layer

namespace Phrase

variable {ending : Except Diagnostic Token} {after : List TokenKind → Prop}

/-! ## Every expression can be completed -/

theorem only_possible (kind : TokenKind) : (only kind).Viable [] :=
  ⟨[kind], .token (List.mem_singleton.mpr rfl)⟩

theorem derives_further_nil (operators : List TokenKind) (operand : Category) :
    (further operators operand).Derives [] := .none

theorem further_possible (operators : List TokenKind) (operand : Category) :
    (further operators operand).Viable [] := .of_derives (derives_further_nil operators operand)

theorem primary_possible : (category .primary).Viable [] :=
  ⟨[.integerLiteral], .category (.left (.token (by decide)))⟩

theorem layer_possible (layer : Layer) : (category layer.category).Viable [] := by
  induction layer using Layer.induction with
  | unary =>
      apply Viable.category
      exact Viable.inSecond .none primary_possible
  | binary layer binary ih =>
      apply Viable.category
      rw [Layer.phrase_category binary]
      exact ih.inFirst (further_possible _ _)

theorem logicalOr_possible : (category .logicalOr).Viable [] := layer_possible .logicalOr

/-! ## How expressions begin -/

theorem not_followedBy_primary_nil : ¬ (category .primary).FollowedBy after [] := by
  simp [Category.phrase, condition]

/-- A primary expression by the token that it begins with. -/
theorem followedBy_primary_cons {kind : TokenKind} {word : List TokenKind} :
    (category .primary).FollowedBy after (kind :: word) ↔
      kind ∈ TokenKind.literals ∧ after word ∨
      kind ∈ TokenKind.identifiers ∧ arguments.FollowedBy after word ∨
      kind = .openParen ∧
        (sequence (category .logicalOr) (only .closeParen)).FollowedBy after word := by
  rw [followedBy_category, Category.phrase, followedBy_choice, followedBy_choice,
    followedBy_token_cons, followedBy_sequence, followedBy_token_cons, condition,
    followedBy_sequence, followedBy_only_cons]

theorem not_identifier_of_literal {kind : TokenKind} (literal : kind ∈ TokenKind.literals) :
    kind ∉ TokenKind.identifiers := by
  have separate : ∀ kind ∈ TokenKind.literals, kind ∉ TokenKind.identifiers := by decide
  exact separate kind literal

/-- A literal is a primary expression by itself. -/
theorem behind_literal {kind : TokenKind} {word : List TokenKind}
    (literal : kind ∈ TokenKind.literals)
    (followed : (category .primary).FollowedBy after (kind :: word)) : after word := by
  rcases followedBy_primary_cons.mp followed with ⟨_, holds⟩ | ⟨named, _⟩ | ⟨rfl, _⟩
  · exact holds
  · exact absurd named (not_identifier_of_literal literal)
  · exact absurd literal (by decide)

/-- Behind a name there may be parentheses. -/
theorem behind_name {kind : TokenKind} {word : List TokenKind}
    (named : kind ∈ TokenKind.identifiers)
    (followed : (category .primary).FollowedBy after (kind :: word)) :
    arguments.FollowedBy after word := by
  rcases followedBy_primary_cons.mp followed with ⟨literal, _⟩ | ⟨_, holds⟩ | ⟨rfl, _⟩
  · exact absurd named (not_identifier_of_literal literal)
  · exact holds
  · exact absurd named (by decide)

/-- Behind a parenthesis there is an expression that another one closes. -/
theorem behind_paren {word : List TokenKind}
    (followed : (category .primary).FollowedBy after (.openParen :: word)) :
    (sequence (category .logicalOr) (only .closeParen)).FollowedBy after word := by
  rcases followedBy_primary_cons.mp followed with ⟨literal, _⟩ | ⟨named, _⟩ | ⟨_, holds⟩
  · exact absurd literal (by decide)
  · exact absurd named (by decide)
  · exact holds

theorem derives_arguments_nil : arguments.Derives [] := .left .empty

theorem followedBy_arguments {word : List TokenKind} :
    arguments.FollowedBy after word ↔
      after word ∨ (only .openParen).FollowedBy ((only .closeParen).FollowedBy after) word := by
  rw [arguments, followedBy_choice, followedBy_empty, followedBy_sequence]

/-- An operand behind any number of `!`. -/
theorem followedBy_unary {word : List TokenKind} :
    (category .unary).FollowedBy after word ↔
      (category .primary).FollowedBy after word ∨
        (sequence (only .logicalNot) (category .unary)).FollowedBy after word := by
  have unfolded : (category .unary).FollowedBy after =
      (repeated (only .logicalNot)).FollowedBy ((category .primary).FollowedBy after) := by
    rw [followedBy_category, Category.phrase, followedBy_sequence]
  rw [followedBy_sequence, unfolded, followedBy_repeated]

/-! ## Recognition -/

/-- A variable or a call, behind its name. -/
theorem afterName_recognises (final : ∀ token, ending = .ok token → token.kind = .endOfInput)
    (name : Token) (tokens : List Token) :
    arguments.Recognises Layer.unary.Permits ending tokens
      (afterName ending name tokens).result := by
  cases tokens with
  | nil =>
      rw [afterName]
      refine Recognises.settled derives_arguments_nil ?_ _
      intro after _ word alike followed
      rw [alike.eq_nil] at followed ⊢
      exact (followedBy_arguments.mp followed).resolve_right followedBy_only_nil
  | cons token rest =>
      by_cases opened : token.kind = .openParen
      · rw [afterName, if_pos opened]
        refine Recognises.begins (List.mem_singleton.mpr opened)
          (.value (.takenOnly final (by decide) rest) fun _ _ _ => ⟨_, rfl⟩) (fun _ => .right) ?_
        intro after permits word followed
        rw [followedBy_arguments, followedBy_only_cons] at followed
        rcases followed with holds | ⟨_, closed⟩
        · exact absurd opened (permits _ _ holds).1
        · exact closed
      · rw [afterName, if_neg opened]
        refine Recognises.nothing derives_arguments_nil ?_ _
        intro after _ word alike followed
        rcases alike.exists_cons with ⟨others, rfl⟩
        rw [followedBy_arguments, followedBy_only_cons] at followed
        exact followed.resolve_right fun call => opened call.1

mutual

theorem primaryFrom_recognises
    (final : ∀ token, ending = .ok token → token.kind = .endOfInput)
    (tokens : List Token) :
    (category .primary).Recognises Layer.unary.Permits ending tokens
      (primaryFrom ending tokens).result := by
  cases tokens with
  | nil =>
      rw [primaryFrom]
      refine Recognises.stopped primary_possible ?_ fun culprit _ => .notOperand
      intro after _ word alike followed
      rw [alike.eq_nil] at followed
      exact not_followedBy_primary_nil followed
  | cons token rest =>
      rw [primaryFrom]
      by_cases literal : token.kind.isLiteral = true
      · rw [if_pos literal]
        have member : token.kind ∈ TokenKind.literals := of_decide_eq_true literal
        refine Recognises.choose (.one member _) (fun _ derives => .category (.left derives))
          (fun _ => id) ?_
        intro after _ word alike followed
        rcases alike.exists_cons with ⟨others, rfl⟩
        rw [followedBy_token_cons]
        exact ⟨member, behind_literal member followed⟩
      · rw [if_neg literal]
        by_cases named : token.kind.isIdentifier = true
        · rw [if_pos named]
          have member : token.kind ∈ TokenKind.identifiers := of_decide_eq_true named
          exact .begins member (afterName_recognises final token rest)
            (fun _ derives => .category (.right (.left derives)))
            fun _ _ _ followed => behind_name member followed
        · rw [if_neg named]
          by_cases opened : token.kind = .openParen
          · rw [if_pos opened]
            refine Recognises.begins (List.mem_singleton.mpr opened)
              (.andThen (layerFrom_recognises final .logicalOr rest) ?_
                (fun after _ => Layer.permits_only .logicalOr (.inl rfl) after)
                (only_possible .closeParen))
              (fun _ derives => .category (.right (.right derives))) ?_
            · intro inner after _
              exact .value (.takenOnly final (by decide) after) fun _ _ _ => ⟨_, rfl⟩
            · intro after _ word followed
              rw [opened] at followed
              exact behind_paren followed
          · rw [if_neg opened]
            change Recognises _ _ _ _ (.error (blame ending notOperand (token :: rest)))
            refine Recognises.stopped primary_possible ?_ fun culprit _ => .notOperand
            intro after _ word alike followed
            rcases alike.exists_cons with ⟨others, rfl⟩
            rcases followedBy_primary_cons.mp followed with ⟨member, _⟩ | ⟨member, _⟩ | ⟨same, _⟩
            · exact literal (decide_eq_true member)
            · exact named (decide_eq_true member)
            · exact opened same
termination_by (tokens.length, 0)

theorem unaryFrom_recognises
    (final : ∀ token, ending = .ok token → token.kind = .endOfInput)
    (tokens : List Token) :
    (category .unary).Recognises Layer.unary.Permits ending tokens
      (unaryFrom ending tokens).result := by
  cases tokens with
  | nil =>
      rw [unaryFrom]
      refine Recognises.choose (primaryFrom_recognises final []) ?_ (fun _ => id) ?_
      · intro word derives
        exact derives.of_followedBy fun after word => followedBy_unary.mpr ∘ .inl
      · intro after _ word alike followed
        rw [alike.eq_nil] at followed ⊢
        simpa using followedBy_unary.mp followed
  | cons token rest =>
      rw [unaryFrom]
      by_cases negated : token.kind = .logicalNot
      · rw [if_pos negated]
        refine Recognises.begins (List.mem_singleton.mpr negated)
          (.value (unaryFrom_recognises final rest) fun _ _ _ => ⟨_, rfl⟩) ?_ ?_
        · intro word derives
          exact derives.of_followedBy fun after word => followedBy_unary.mpr ∘ .inr
        · intro after _ word followed
          rw [negated, followedBy_unary, followedBy_sequence, followedBy_only_cons] at followed
          rcases followed with primary | ⟨_, operand⟩
          · rcases followedBy_primary_cons.mp primary with ⟨member, _⟩ | ⟨member, _⟩ | ⟨same, _⟩
            · exact absurd member (by decide)
            · exact absurd member (by decide)
            · cases same
          · exact operand
      · rw [if_neg negated]
        refine Recognises.choose (primaryFrom_recognises final (token :: rest)) ?_ (fun _ => id) ?_
        · intro word derives
          exact derives.of_followedBy fun after word => followedBy_unary.mpr ∘ .inl
        · intro after _ word alike followed
          rcases alike.exists_cons with ⟨others, rfl⟩
          apply (followedBy_unary.mp followed).resolve_right
          intro negation
          rw [followedBy_sequence, followedBy_only_cons] at negation
          exact negated negation.1
termination_by (tokens.length, 1)

theorem layerFrom_recognises
    (final : ∀ token, ending = .ok token → token.kind = .endOfInput)
    (layer : Layer) (tokens : List Token) :
    (category layer.category).Recognises layer.Permits ending tokens
      (layerFrom ending layer tokens).result := by
  rw [layerFrom]
  by_cases tightest : layer = .unary
  · rw [dif_pos tightest]
    cases tightest
    refine Recognises.choose (.andThen (unaryFrom_recognises final tokens) ?_ ?_ ⟨[], .empty⟩)
      ?_ (fun _ => id) ?_
    · intro operand rest fewer
      rw [Parsed.result_widen]
      refine Recognises.settled .empty ?_ operand
      intro after _ word _ followed
      rwa [followedBy_empty] at followed
    · intro after permits
      rwa [followedBy_empty]
    · intro word derives
      apply derives.of_followedBy
      intro after word followed
      rwa [followedBy_sequence, followedBy_empty] at followed
    · intro after _ word _ followed
      rwa [followedBy_sequence, followedBy_empty]
  · rw [dif_neg tightest]
    apply Recognises.category
    rw [Layer.phrase_category tightest]
    apply Recognises.andThen (layerFrom_recognises final layer.tighter tokens)
    · intro left rest fewer
      rw [Parsed.result_widen]
      exact moreFrom_recognises final layer left rest
    · intro after permits
      exact Layer.permits_tighter tightest permits
    · exact further_possible _ _
termination_by (tokens.length, layer.height + 2)
decreasing_by
  · exact Prod.Lex.right _ (by omega)
  · exact Prod.Lex.right _ (Nat.add_lt_add_right (Layer.height_tighter tightest) 2)
  · exact Prod.Lex.left _ _ fewer

theorem moreFrom_recognises
    (final : ∀ token, ending = .ok token → token.kind = .endOfInput)
    (layer : Layer) (left : Expression) (tokens : List Token) :
    (further layer.operators layer.tighter.category).Recognises layer.Permits ending tokens
      (moreFrom ending layer left tokens).result := by
  cases tokens with
  | nil =>
      rw [moreFrom]
      refine Recognises.settled (derives_further_nil _ _) ?_ left
      intro after _ word alike followed
      rw [alike.eq_nil, followedBy_further] at followed
      rw [alike.eq_nil]
      exact followed.resolve_right followedBy_token_nil
  | cons operator rest =>
      rw [moreFrom]
      by_cases member : operator.kind ∈ layer.operators
      · rw [if_pos member]
        have binary := Layer.ne_unary_of_mem_operators member
        have possible := further_possible layer.operators layer.tighter.category
        refine Recognises.begins member
          (.andThen (layerFrom_recognises final layer.tighter rest) ?_ ?_ possible) ?_ ?_
        · intro right after fewer
          rw [Parsed.result_widen]
          exact moreFrom_recognises final layer _ after
        · intro after permits
          exact Layer.permits_tighter binary permits
        · intro word derives
          apply derives.of_followedBy
          intro after word followed
          rw [followedBy_sequence, followedBy_sequence] at followed
          exact followedBy_further.mpr (.inr followed)
        · intro after permits word followed
          rw [followedBy_sequence]
          rw [followedBy_further, followedBy_token_cons] at followed
          rcases followed with holds | ⟨_, further⟩
          · -- An operator of the layer cannot follow the layer.
            have reached := (Layer.mem_reach_iff binary _).mpr (.inl member)
            exact absurd reached (permits _ _ holds).2
          · exact further
      · rw [if_neg member]
        refine Recognises.nothing (derives_further_nil _ _) ?_ left
        intro after _ word alike followed
        rcases alike.exists_cons with ⟨others, rfl⟩
        rw [followedBy_further, followedBy_token_cons] at followed
        exact followed.resolve_right fun further => member further.1
termination_by (tokens.length, 0)

end

end Phrase

end Scriptlet
