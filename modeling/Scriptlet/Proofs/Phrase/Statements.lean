import Scriptlet.Proofs.Phrase.Expressions

/-!
# Recognising statements

Recursive descent recognises statements, although the grammar is ambiguous about them.  An `else`
always goes to the innermost conditional that is open.  Nothing is lost in this way: behind the
`else` stands a statement in any case, and whatever could follow the outer conditional with the
`else` could follow the inner one too (`YieldsElse`).
-/

namespace Scriptlet

open Descent

namespace Phrase

variable {ending : Except Diagnostic Token} {allowed : (List TokenKind → Prop) → Prop}
  {after : List TokenKind → Prop} {word : List TokenKind}

/-! ## Every statement can be completed -/

theorem identifiers_ne_nil : TokenKind.identifiers ≠ [] := by decide

theorem value_possible : (sequence (category .logicalOr) (only .semicolon)).Viable [] :=
  logicalOr_possible.inFirst (only_possible .semicolon)

theorem assignment_possible : (category .assignment).Viable [] := by
  have target : (token TokenKind.identifiers).Viable [] :=
    ⟨[.identifier .scalar .everyone], .token (by decide)⟩
  exact Viable.category (target.inFirst ((only_possible .assign).inFirst value_possible))

theorem statement_possible : (category .statement).Viable [] :=
  Viable.category (assignment_possible.mono fun _ derives => .right (.right (.right derives)))

theorem derives_alternatives_nil : alternatives.Derives [] := .sequence .none (.left .empty)

theorem alternatives_possible : alternatives.Viable [] := .of_derives derives_alternatives_nil

theorem statements_possible : (repeated (category .statement)).Viable [] := ⟨[], .none⟩

/-! ## How statements begin -/

/-- A statement by the token that it begins with. -/
theorem followedBy_statement_cons {kind : TokenKind} :
    (category .statement).FollowedBy after (kind :: word) ↔
      kind = .ifWord ∧
        (sequence condition (sequence (category .statement) alternatives)).FollowedBy after word ∨
      kind = .whileWord ∧
        (sequence condition (category .statement)).FollowedBy after word ∨
      kind = .openCurly ∧
        (sequence (repeated (category .statement)) (only .closeCurly)).FollowedBy after word ∨
      (category .assignment).FollowedBy after (kind :: word) := by
  rw [followedBy_category, Category.phrase, followedBy_choice, followedBy_choice,
    followedBy_choice, followedBy_category, followedBy_category, followedBy_category]
  simp only [Category.phrase, followedBy_sequence, followedBy_only_cons]

theorem not_followedBy_statement_nil : ¬ (category .statement).FollowedBy after [] := by
  simp [Category.phrase]

theorem identifier_of_assignment {kind : TokenKind}
    (followed : (category .assignment).FollowedBy after (kind :: word)) :
    kind ∈ TokenKind.identifiers := by
  rw [followedBy_category, Category.phrase, followedBy_sequence, followedBy_token_cons] at followed
  exact followed.1

/-- Statements begin with a word, with a brace or with a name. -/
theorem begins_of_statement {kind : TokenKind}
    (followed : (category .statement).FollowedBy after (kind :: word)) :
    kind ∈ [.ifWord, .whileWord, .openCurly] ++ TokenKind.identifiers := by
  rcases followedBy_statement_cons.mp followed with ⟨rfl, _⟩ | ⟨rfl, _⟩ | ⟨rfl, _⟩ | assigned
  · decide
  · decide
  · decide
  · exact List.mem_append_right _ (identifier_of_assignment assigned)

/-! ## Who gets an `else` -/

/-- The alternatives of a conditional are an `else` with any statement, or nothing.  An `else` with
a condition and more alternatives behind it is an `else` with a conditional. -/
theorem followedBy_alternatives :
    alternatives.FollowedBy after word ↔
      after word ∨
        (only .elseWord).FollowedBy ((category .statement).FollowedBy after) word := by
  have conditional : ∀ word,
      (only .ifWord).FollowedBy (condition.FollowedBy ((category .statement).FollowedBy
        (alternatives.FollowedBy after))) word → (category .statement).FollowedBy after word := by
    intro word followed
    rw [followedBy_category, Category.phrase, followedBy_choice, followedBy_category,
      Category.phrase]
    simp only [followedBy_sequence]
    exact .inl followed
  constructor
  · intro followed
    rw [alternatives, followedBy_sequence, followedBy_repeated, followedBy_choice,
      followedBy_empty, followedBy_sequence] at followed
    rcases followed with (holds | last) | more
    · exact .inl holds
    · exact .inr last
    · refine .inr ?_
      simp only [followedBy_sequence] at more
      refine more.mono fun word followed => conditional word ?_
      simpa only [alternatives, followedBy_sequence] using followed
  · intro followed
    rw [alternatives, followedBy_sequence, followedBy_repeated, followedBy_choice,
      followedBy_empty, followedBy_sequence]
    exact .inl followed

/-- Where an `else` may follow a statement, a statement may follow the `else`, so that the `else`
may as well belong to the statement. -/
def YieldsElse (after : List TokenKind → Prop) : Prop :=
  ∀ word, after (.elseWord :: word) → (category .statement).FollowedBy after word

/-- The branch of a conditional may have an `else` of its own. -/
theorem yieldsElse_alternatives (yields : YieldsElse after) :
    YieldsElse (alternatives.FollowedBy after) := by
  intro word followed
  have statement : (category .statement).FollowedBy after word := by
    rw [followedBy_alternatives, followedBy_only_cons] at followed
    rcases followed with holds | ⟨_, statement⟩
    · exact yields word holds
    · exact statement
  exact statement.mono fun _ holds => followedBy_alternatives.mpr (.inl holds)

/-- Nothing but the end or a token of the kinds may follow. -/
def Closes (stops : List TokenKind) (after : List TokenKind → Prop) : Prop :=
  ∀ kind rest, after (kind :: rest) → kind ∈ stops

/-- No `else` can follow a statement that is not part of another one. -/
theorem yieldsElse_statements {stops : List TokenKind} (other : .elseWord ∉ stops)
    (closes : Closes stops after) :
    YieldsElse ((repeated (category .statement)).FollowedBy after) := by
  intro word followed
  rw [followedBy_repeated] at followed
  rcases followed with holds | statement
  · exact absurd (closes _ _ holds) other
  · exact absurd (begins_of_statement statement) (by decide)

/-! ## Recognition -/

theorem conditionFrom_recognises
    (final : ∀ token, ending = .ok token → token.kind = .endOfInput) (tokens : List Token) :
    condition.Recognises (fun _ => True) ending tokens (conditionFrom ending tokens).result := by
  refine Recognises.takenThen final (List.cons_ne_nil _ _) (by decide) ?_
    (logicalOr_possible.inFirst (only_possible .closeParen))
  intro _ rest _
  refine Recognises.andThen (layerFrom_recognises final .logicalOr rest) ?_ ?_
    (only_possible .closeParen)
  · intro condition after _
    exact .value (.takenOnly final (by decide) after) fun _ _ _ => ⟨_, rfl⟩
  · intro after _
    exact Layer.permits_only .logicalOr (.inl rfl) after

theorem assignmentFrom_recognises
    (final : ∀ token, ending = .ok token → token.kind = .endOfInput) (tokens : List Token) :
    (category .assignment).Recognises allowed ending tokens
      (assignmentFrom ending tokens).result := by
  refine Recognises.category (Recognises.takenThen final identifiers_ne_nil (by decide) ?_
    ((only_possible .assign).inFirst value_possible))
  intro target rest _
  refine Recognises.takenThen final (List.cons_ne_nil _ _) (by decide) ?_ value_possible
  intro _ after _
  refine Recognises.andThen (layerFrom_recognises final .logicalOr after) ?_ ?_
    (only_possible .semicolon)
  · intro value later _
    exact .value (.takenOnly final (by decide) later) fun _ _ _ => ⟨_, rfl⟩
  · intro after _
    exact Layer.permits_only .logicalOr (.inr rfl) after

namespace Recognises

variable {α : Type} {token : Token} {rest : List Token}
  {outcome : Except Diagnostic (α × List Token)}

/-- A statement that begins with `if` is a conditional. -/
theorem conditional (begins : token.kind = .ifWord)
    (behind : (sequence condition (sequence (Phrase.category .statement) alternatives)).Recognises
      allowed ending rest outcome) :
    (Phrase.category .statement).Recognises allowed ending (token :: rest) outcome := by
  refine Recognises.begins (List.mem_singleton.mpr begins) behind
    (fun _ derives => .category (.left (.category derives))) ?_
  intro after _ word followed
  rw [begins] at followed
  rcases followedBy_statement_cons.mp followed with ⟨_, holds⟩ | ⟨other, _⟩ | ⟨other, _⟩ | assigned
  · exact holds
  · cases other
  · cases other
  · exact absurd (identifier_of_assignment assigned) (by decide)

/-- A statement that begins with `while` is a loop. -/
theorem loop (begins : token.kind = .whileWord)
    (behind : (sequence condition (Phrase.category .statement)).Recognises
      allowed ending rest outcome) :
    (Phrase.category .statement).Recognises allowed ending (token :: rest) outcome := by
  refine Recognises.begins (List.mem_singleton.mpr begins) behind
    (fun _ derives => .category (.right (.left (.category derives)))) ?_
  intro after _ word followed
  rw [begins] at followed
  rcases followedBy_statement_cons.mp followed with ⟨other, _⟩ | ⟨_, holds⟩ | ⟨other, _⟩ | assigned
  · cases other
  · exact holds
  · cases other
  · exact absurd (identifier_of_assignment assigned) (by decide)

/-- A statement that begins with a brace is a block. -/
theorem block (begins : token.kind = .openCurly)
    (behind : (sequence (repeated (Phrase.category .statement)) (only .closeCurly)).Recognises
      allowed ending rest outcome) :
    (Phrase.category .statement).Recognises allowed ending (token :: rest) outcome := by
  refine Recognises.begins (List.mem_singleton.mpr begins) behind
    (fun _ derives => .category (.right (.right (.left (.category derives))))) ?_
  intro after _ word followed
  rw [begins] at followed
  rcases followedBy_statement_cons.mp followed with ⟨other, _⟩ | ⟨other, _⟩ | ⟨_, holds⟩ | assigned
  · cases other
  · cases other
  · exact holds
  · exact absurd (identifier_of_assignment assigned) (by decide)

/-- Any other statement is an assignment. -/
theorem assignment {tokens : List Token}
    (other : ∀ kind rest, Alike (kind :: rest) tokens →
      kind ∉ [TokenKind.ifWord, .whileWord, .openCurly])
    (behind : (Phrase.category .assignment).Recognises allowed ending tokens outcome) :
    (Phrase.category .statement).Recognises allowed ending tokens outcome := by
  refine choose behind (fun _ derives => .category (.right (.right (.right derives))))
    (fun _ => id) ?_
  intro after _ word alike followed
  cases word with
  | nil => exact absurd followed not_followedBy_statement_nil
  | cons kind word =>
      have outside := other kind word alike
      rcases followedBy_statement_cons.mp followed with ⟨rfl, _⟩ | ⟨rfl, _⟩ | ⟨rfl, _⟩ | assigned
      · exact absurd outside (by decide)
      · exact absurd outside (by decide)
      · exact absurd outside (by decide)
      · exact assigned

end Recognises

mutual

theorem statementFrom_recognises
    (final : ∀ token, ending = .ok token → token.kind = .endOfInput) (tokens : List Token) :
    (category .statement).Recognises YieldsElse ending tokens
      (statementFrom ending tokens).result := by
  cases tokens with
  | nil =>
      rw [statementFrom]
      refine Recognises.assignment ?_ (assignmentFrom_recognises final [])
      intro kind others alike
      cases alike
  | cons token rest =>
      rw [statementFrom]
      by_cases conditional : token.kind = .ifWord
      · rw [if_pos conditional]
        refine Recognises.conditional conditional (.andThen (conditionFrom_recognises final rest)
          ?_ (fun _ _ => trivial) (statement_possible.inFirst alternatives_possible))
        intro condition after _
        refine Recognises.andThen (statementFrom_recognises final after) ?_
          (fun _ => yieldsElse_alternatives) alternatives_possible
        intro branch later _
        exact .value (alternativesFrom_recognises final later) fun _ _ _ => ⟨_, rfl⟩
      · rw [if_neg conditional]
        by_cases loop : token.kind = .whileWord
        · rw [if_pos loop]
          refine Recognises.loop loop (.andThen (conditionFrom_recognises final rest)
            ?_ (fun _ _ => trivial) statement_possible)
          intro condition after _
          exact .value (statementFrom_recognises final after) fun _ _ _ => ⟨_, rfl⟩
        · rw [if_neg loop]
          by_cases block : token.kind = .openCurly
          · rw [if_pos block]
            refine Recognises.block block (.andThen
              (statementsFrom_recognises final [.closeCurly] (by decide) rest)
              ?_ ?_ (only_possible .closeCurly))
            · intro body after _
              exact .value (.takenOnly final (by decide) after) fun _ _ _ => ⟨_, rfl⟩
            · intro after _ kind rest followed
              rw [followedBy_only_cons] at followed
              exact List.mem_singleton.mpr followed.1
          · rw [if_neg block]
            refine Recognises.assignment ?_ (assignmentFrom_recognises final (token :: rest))
            intro kind others alike
            cases alike
            simp [conditional, loop, block]
termination_by (tokens.length, 0)

theorem alternativesFrom_recognises
    (final : ∀ token, ending = .ok token → token.kind = .endOfInput) (tokens : List Token) :
    alternatives.Recognises YieldsElse ending tokens (alternativesFrom ending tokens).result := by
  cases tokens with
  | nil =>
      rw [alternativesFrom]
      refine Recognises.settled derives_alternatives_nil ?_ _
      intro after _ word alike followed
      rw [alike.eq_nil] at followed ⊢
      exact (followedBy_alternatives.mp followed).resolve_right followedBy_only_nil
  | cons token rest =>
      rw [alternativesFrom]
      by_cases otherwise : token.kind = .elseWord
      · rw [if_pos otherwise, Parsed.result_widen]
        refine Recognises.begins (List.mem_singleton.mpr otherwise)
          (afterElseFrom_recognises final token.span.start rest)
          (fun _ derives => .sequence .none (.right derives)) ?_
        intro after yields word followed
        rw [otherwise, followedBy_alternatives, followedBy_only_cons] at followed
        -- Even if the `else` belongs to a conditional further out, it may belong to this one.
        rcases followed with holds | ⟨_, statement⟩
        · exact yields word holds
        · exact statement
      · rw [if_neg otherwise]
        refine Recognises.nothing derives_alternatives_nil ?_ _
        intro after _ word alike followed
        rcases alike.exists_cons with ⟨others, rfl⟩
        rw [followedBy_alternatives, followedBy_only_cons] at followed
        exact followed.resolve_right fun further => otherwise further.1
termination_by (tokens.length, 0)

theorem afterElseFrom_recognises
    (final : ∀ token, ending = .ok token → token.kind = .endOfInput) (start : Position)
    (tokens : List Token) :
    (category .statement).Recognises YieldsElse ending tokens
      (afterElseFrom ending start tokens).result := by
  cases tokens with
  | nil =>
      rw [afterElseFrom]
      exact .value (statementFrom_recognises final []) fun _ _ _ => ⟨_, rfl⟩
  | cons token rest =>
      rw [afterElseFrom]
      by_cases conditional : token.kind = .ifWord
      · rw [if_pos conditional]
        refine Recognises.conditional conditional (.andThen (conditionFrom_recognises final rest)
          ?_ (fun _ _ => trivial) (statement_possible.inFirst alternatives_possible))
        intro condition after _
        refine Recognises.andThen (statementFrom_recognises final after) ?_
          (fun _ => yieldsElse_alternatives) alternatives_possible
        intro branch later _
        exact .value (alternativesFrom_recognises final later) fun _ _ _ => ⟨_, rfl⟩
      · rw [if_neg conditional]
        exact .value (statementFrom_recognises final (token :: rest)) fun _ _ _ => ⟨_, rfl⟩
termination_by (tokens.length, 1)

theorem statementsFrom_recognises
    (final : ∀ token, ending = .ok token → token.kind = .endOfInput) (stops : List TokenKind)
    (closing : ∀ kind ∈ stops, kind = .closeCurly) (tokens : List Token) :
    (repeated (category .statement)).Recognises (Closes stops) ending tokens
      (statementsFrom ending stops tokens).result := by
  cases tokens with
  | nil =>
      rw [statementsFrom]
      refine Recognises.settled .none ?_ _
      intro after _ word alike followed
      rw [alike.eq_nil] at followed ⊢
      exact (followedBy_repeated.mp followed).resolve_right not_followedBy_statement_nil
  | cons token rest =>
      rw [statementsFrom]
      by_cases stopped : token.kind ∈ stops
      · rw [if_pos stopped]
        refine Recognises.nothing .none ?_ _
        intro after _ word alike followed
        rcases alike.exists_cons with ⟨others, rfl⟩
        -- A closing brace begins no statement, so that the repetition is over.
        apply (followedBy_repeated.mp followed).resolve_right
        intro statement
        rw [closing token.kind stopped] at statement
        exact absurd (begins_of_statement statement) (by decide)
      · rw [if_neg stopped]
        refine Recognises.choose (.andThen (statementFrom_recognises final (token :: rest)) ?_ ?_
          statements_possible) ?_ (fun _ => id) ?_
        · intro first after fewer
          exact .value (statementsFrom_recognises final stops closing after) fun _ _ _ => ⟨_, rfl⟩
        · intro after closes
          refine yieldsElse_statements (fun member => ?_) closes
          cases closing _ member
        · intro word derives
          cases derives with
          | sequence first others => exact .more first others
        · intro after closes word alike followed
          rcases alike.exists_cons with ⟨others, rfl⟩
          rw [followedBy_sequence]
          apply (followedBy_repeated.mp followed).resolve_left
          intro holds
          exact stopped (closes _ _ holds)
termination_by (tokens.length, 1)

end

end Phrase

end Scriptlet
