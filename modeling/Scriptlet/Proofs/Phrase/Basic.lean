import Scriptlet.Token.Basic

/-!
# The grammar of the language

The grammar in the form in which it is written down: a phrase for each category, over the kinds of
tokens.  It is ambiguous, since an `else` may belong to any conditional that is open around it, and
it says nothing about how deeply phrases may nest.

`Phrase.Derives` is what a phrase stands for.  `Phrase.FollowedBy` is the form in which phrases are
compared with a reader, which sees what stands behind a phrase and has to decide where the phrase
ends.
-/

namespace Scriptlet

/-- The categories of the language. -/
inductive Category where
  | program
  | statement
  | conditional
  | loop
  | block
  | assignment
  | logicalOr
  | logicalAnd
  | additive
  | multiplicative
  | unary
  | primary
  deriving DecidableEq, Repr

/-- The right-hand sides of the grammar. -/
inductive Phrase where
  /-- No token at all. -/
  | empty
  /-- A token of one of the kinds. -/
  | token (kinds : List TokenKind)
  | category (category : Category)
  | sequence (first second : Phrase)
  | choice (left right : Phrase)
  /-- Any number of times, also none. -/
  | repeated (phrase : Phrase)
  deriving DecidableEq, Repr

namespace Phrase

/-- A token of the kind. -/
def only (kind : TokenKind) : Phrase := .token [kind]

/-- `(operator operand)*` -/
def further (operators : List TokenKind) (operand : Category) : Phrase :=
  .repeated (.sequence (.token operators) (.category operand))

/-- `operand (operator operand)*` -/
def joined (operators : List TokenKind) (operand : Category) : Phrase :=
  .sequence (.category operand) (.further operators operand)

/-- `'(' LogicalOr ')'` -/
def condition : Phrase :=
  .sequence (.only .openParen) (.sequence (.category .logicalOr) (.only .closeParen))

/-- `('(' ')')?` -/
def arguments : Phrase :=
  .choice .empty (.sequence (.only .openParen) (.only .closeParen))

/-- `('else' 'if' '(' LogicalOr ')' Statement)* ('else' Statement)?` -/
def alternatives : Phrase :=
  .sequence
    (.repeated (.sequence (.only .elseWord)
      (.sequence (.only .ifWord) (.sequence .condition (.category .statement)))))
    (.choice .empty (.sequence (.only .elseWord) (.category .statement)))

end Phrase

/-- The phrase of each category. -/
def Category.phrase : Category → Phrase
  | .program => .repeated (.category .statement)
  | .statement =>
      .choice (.category .conditional)
        (.choice (.category .loop) (.choice (.category .block) (.category .assignment)))
  | .conditional =>
      .sequence (.only .ifWord)
        (.sequence .condition (.sequence (.category .statement) .alternatives))
  | .loop => .sequence (.only .whileWord) (.sequence .condition (.category .statement))
  | .block =>
      .sequence (.only .openCurly)
        (.sequence (.repeated (.category .statement)) (.only .closeCurly))
  | .assignment =>
      .sequence (.token TokenKind.identifiers)
        (.sequence (.only .assign) (.sequence (.category .logicalOr) (.only .semicolon)))
  | .logicalOr => .joined [.logicalOr] .logicalAnd
  | .logicalAnd => .joined [.logicalAnd] .additive
  | .additive => .joined [.plus, .dash] .multiplicative
  | .multiplicative => .joined [.star, .slash, .percent] .unary
  | .unary => .sequence (.repeated (.only .logicalNot)) (.category .primary)
  | .primary =>
      .choice (.token TokenKind.literals)
        (.choice (.sequence (.token TokenKind.identifiers) .arguments) .condition)

namespace Phrase

variable {phrase first second left right : Phrase} {kinds word : List TokenKind}
  {after later : List TokenKind → Prop}

/-- The sequences of kinds that a phrase stands for. -/
inductive Derives : Phrase → List TokenKind → Prop where
  | empty : Derives .empty []
  | token {kinds : List TokenKind} {kind : TokenKind} (member : kind ∈ kinds) :
      Derives (.token kinds) [kind]
  | category {category : Category} {word : List TokenKind} :
      Derives category.phrase word → Derives (.category category) word
  | sequence {first second : Phrase} {front back : List TokenKind} :
      Derives first front → Derives second back → Derives (.sequence first second) (front ++ back)
  | left {left right : Phrase} {word : List TokenKind} :
      Derives left word → Derives (.choice left right) word
  | right {left right : Phrase} {word : List TokenKind} :
      Derives right word → Derives (.choice left right) word
  | none {phrase : Phrase} : Derives (.repeated phrase) []
  | more {phrase : Phrase} {front back : List TokenKind} :
      Derives phrase front → Derives (.repeated phrase) back →
        Derives (.repeated phrase) (front ++ back)

/-- More tokens can complete the phrase. -/
def Viable (phrase : Phrase) (word : List TokenKind) : Prop :=
  ∃ rest, phrase.Derives (word ++ rest)

namespace Viable

theorem of_derives (derives : phrase.Derives word) : phrase.Viable word :=
  ⟨[], by rwa [List.append_nil]⟩

/-- Inside the first of two phrases, provided that the second can be completed at all. -/
theorem inFirst (viable : first.Viable word) (possible : second.Viable []) :
    (sequence first second).Viable word := by
  rcases viable with ⟨rest, derives⟩
  rcases possible with ⟨back, completes⟩
  refine ⟨rest ++ back, ?_⟩
  rw [← List.append_assoc]
  exact .sequence derives completes

/-- Behind the first of two phrases. -/
theorem inSecond {front : List TokenKind} (derives : first.Derives front)
    (viable : second.Viable word) : (sequence first second).Viable (front ++ word) := by
  rcases viable with ⟨rest, completes⟩
  refine ⟨rest, ?_⟩
  rw [List.append_assoc]
  exact .sequence derives completes

theorem mono (viable : left.Viable word) (within : ∀ word, left.Derives word → right.Derives word) :
    right.Viable word := by
  rcases viable with ⟨rest, derives⟩
  exact ⟨rest, within _ derives⟩

theorem category {category : Category} (viable : category.phrase.Viable word) :
    (Phrase.category category).Viable word := viable.mono fun _ => .category

end Viable

/-! ## Phrases and what follows them -/

/-- `phrase.FollowedBy after word` says that the word is a phrase and then something that `after`
holds of. -/
def FollowedBy (phrase : Phrase) (after : List TokenKind → Prop) (word : List TokenKind) : Prop :=
  ∃ front back, word = front ++ back ∧ phrase.Derives front ∧ after back

namespace FollowedBy

theorem mono (followed : phrase.FollowedBy after word) (weaker : ∀ word, after word → later word) :
    phrase.FollowedBy later word := by
  rcases followed with ⟨front, back, split, derives, holds⟩
  exact ⟨front, back, split, derives, weaker back holds⟩

end FollowedBy

/-- A word is a phrase if it is the phrase and then nothing. -/
theorem derives_iff_followedBy : phrase.Derives word ↔ phrase.FollowedBy (· = []) word := by
  constructor
  · intro derives
    exact ⟨word, [], (List.append_nil word).symm, derives, rfl⟩
  · intro followed
    rcases followed with ⟨front, back, rfl, derives, rfl⟩
    rwa [List.append_nil]

/-- Phrases are compared by what they stand for in front of anything else. -/
theorem Derives.of_followedBy (derives : left.Derives word)
    (within : ∀ after word, left.FollowedBy after word → right.FollowedBy after word) :
    right.Derives word := by
  rw [derives_iff_followedBy] at derives ⊢
  exact within _ word derives

@[simp] theorem followedBy_empty : empty.FollowedBy after = after := by
  funext word
  apply propext
  constructor
  · intro followed
    rcases followed with ⟨front, back, rfl, derives, holds⟩
    cases derives
    exact holds
  · intro holds
    exact ⟨[], word, rfl, .empty, holds⟩

@[simp] theorem followedBy_token_nil : ¬ (token kinds).FollowedBy after [] := by
  intro followed
  rcases followed with ⟨front, back, split, derives, _⟩
  cases derives
  cases split

@[simp] theorem followedBy_token_cons {kind : TokenKind} :
    (token kinds).FollowedBy after (kind :: word) ↔ kind ∈ kinds ∧ after word := by
  constructor
  · intro followed
    rcases followed with ⟨front, back, split, derives, holds⟩
    cases derives with
    | token member =>
        cases split
        exact ⟨member, holds⟩
  · intro followed
    rcases followed with ⟨member, holds⟩
    exact ⟨[kind], word, rfl, .token member, holds⟩

@[simp] theorem followedBy_only_nil {kind : TokenKind} : ¬ (only kind).FollowedBy after [] :=
  followedBy_token_nil

@[simp] theorem followedBy_only_cons {kind head : TokenKind} :
    (only kind).FollowedBy after (head :: word) ↔ head = kind ∧ after word := by
  rw [only, followedBy_token_cons, List.mem_singleton]

@[simp] theorem followedBy_category {category : Category} :
    (Phrase.category category).FollowedBy after = category.phrase.FollowedBy after := by
  funext word
  apply propext
  constructor
  · intro followed
    rcases followed with ⟨front, back, split, derives, holds⟩
    cases derives with
    | category derives => exact ⟨front, back, split, derives, holds⟩
  · intro followed
    rcases followed with ⟨front, back, split, derives, holds⟩
    exact ⟨front, back, split, .category derives, holds⟩

@[simp] theorem followedBy_sequence :
    (sequence first second).FollowedBy after = first.FollowedBy (second.FollowedBy after) := by
  funext word
  apply propext
  constructor
  · intro followed
    rcases followed with ⟨front, back, rfl, derives, holds⟩
    cases derives with
    | @sequence _ _ left right leftDerives rightDerives =>
        exact ⟨left, right ++ back, List.append_assoc .., leftDerives,
          right, back, rfl, rightDerives, holds⟩
  · intro followed
    rcases followed with ⟨left, rest, rfl, leftDerives, right, back, rfl, rightDerives, holds⟩
    exact ⟨left ++ right, back, (List.append_assoc ..).symm, .sequence leftDerives rightDerives,
      holds⟩

@[simp] theorem followedBy_choice :
    (choice left right).FollowedBy after word ↔
      left.FollowedBy after word ∨ right.FollowedBy after word := by
  constructor
  · intro followed
    rcases followed with ⟨front, back, split, derives, holds⟩
    cases derives with
    | left derives => exact .inl ⟨front, back, split, derives, holds⟩
    | right derives => exact .inr ⟨front, back, split, derives, holds⟩
  · intro followed
    rcases followed with ⟨front, back, split, derives, holds⟩ | ⟨front, back, split, derives, holds⟩
    · exact ⟨front, back, split, .left derives, holds⟩
    · exact ⟨front, back, split, .right derives, holds⟩

/-- A repetition ends here, or it goes on once more. -/
theorem followedBy_repeated :
    (repeated phrase).FollowedBy after word ↔
      after word ∨ phrase.FollowedBy ((repeated phrase).FollowedBy after) word := by
  constructor
  · intro followed
    rcases followed with ⟨front, back, rfl, derives, holds⟩
    cases derives with
    | none => exact .inl holds
    | @more _ first others firstDerives othersDerive =>
        exact .inr ⟨first, others ++ back, List.append_assoc .., firstDerives,
          others, back, rfl, othersDerive, holds⟩
  · intro followed
    rcases followed with holds | ⟨first, rest, rfl, firstDerives, more⟩
    · exact ⟨[], word, rfl, .none, holds⟩
    · rcases more with ⟨others, back, rfl, othersDerive, holds⟩
      exact ⟨first ++ others, back, (List.append_assoc ..).symm,
        .more firstDerives othersDerive, holds⟩

end Phrase

end Scriptlet
