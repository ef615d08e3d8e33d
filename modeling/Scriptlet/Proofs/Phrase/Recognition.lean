import Scriptlet.Proofs.Phrase.Basic
import Scriptlet.Proofs.Reading.Precedence

/-!
# Recognising phrases

`Recognises` compares an outcome of reading with a phrase of the grammar, in both directions.  If
tokens were used up, they are the phrase, and no other way of cutting the input leaves something
that may follow the phrase unless this way does too.  If reading stopped, then at the first token
that cannot be right, however the input goes on behind it.

The comparison depends on what may follow the phrase, and only the kind of the next token is known
when the decision to end a phrase is made.  There is one rule for each way in which phrases are put
together.
-/

namespace Scriptlet

open Descent

/-- The word and the tokens begin alike: with the same kind, or both are at their end. -/
def Alike (word : List TokenKind) (tokens : List Token) : Prop :=
  word.head? = tokens.head?.map Token.kind

namespace Alike

variable {word : List TokenKind} {tokens used : List Token} {token : Token}

theorem eq_nil (alike : Alike word []) : word = [] :=
  List.head?_eq_none_iff.mp alike

theorem exists_cons (alike : Alike word (token :: tokens)) :
    ∃ others, word = token.kind :: others :=
  List.head?_eq_some_iff.mp alike

theorem append (alike : Alike word tokens) (used : List Token) :
    Alike (used.map Token.kind ++ word) (used ++ tokens) := by
  cases used with
  | nil => exact alike
  | cons first used => rfl

theorem refl (tokens : List Token) : Alike (tokens.map Token.kind) tokens :=
  List.head?_map

end Alike

namespace Phrase

variable {α β : Type} {phrase first second : Phrase}
  {allowed others : (List TokenKind → Prop) → Prop} {ending : Except Diagnostic Token}
  {tokens : List Token}

/-- The diagnostic is about the token behind `before` and names it.  Whatever it expects instead
would do. -/
inductive Complains (phrase : Phrase) (before : List TokenKind) (culprit : Token) :
    Diagnostic → Prop where
  | unexpected {expected : List TokenKind} (outside : culprit.kind ∉ expected)
      (viable : ∀ kind ∈ expected, phrase.Viable (before ++ [kind])) :
      Complains phrase before culprit
        ⟨.unexpectedToken expected culprit.kind culprit.value, culprit.span.start⟩
  | notOperand :
      Complains phrase before culprit ⟨.expectedExpression culprit.value, culprit.span.start⟩

/-- The phrase is `used`, and where `rest` begins it has ended. -/
structure Ends (phrase : Phrase) (allowed : (List TokenKind → Prop) → Prop)
    (used rest : List Token) : Prop where
  derives : phrase.Derives (used.map Token.kind)
  last : ∀ after, allowed after → ∀ word, Alike word rest →
    phrase.FollowedBy after (used.map Token.kind ++ word) → after word

/-- The phrase may begin with `used`, but not go on with what `rest` begins with. -/
structure Breaks (phrase : Phrase) (allowed : (List TokenKind → Prop) → Prop)
    (ending : Except Diagnostic Token) (diagnostic : Diagnostic) (used rest : List Token) :
    Prop where
  viable : phrase.Viable (used.map Token.kind)
  complains : ∃ culprit, current ending rest = .ok culprit ∧
    phrase.Complains (used.map Token.kind) culprit diagnostic
  never : ∀ after, allowed after → ∀ word, Alike word rest →
    ¬ phrase.FollowedBy after (used.map Token.kind ++ word)

/-- An outcome of reading tokens is right about a phrase, among what is allowed to follow it. -/
def Recognises (phrase : Phrase) (allowed : (List TokenKind → Prop) → Prop)
    (ending : Except Diagnostic Token) (tokens : List Token) :
    Except Diagnostic (α × List Token) → Prop
  | .ok (_, rest) => ∃ used, tokens = used ++ rest ∧ phrase.Ends allowed used rest
  | .error diagnostic => ending = .error diagnostic ∨
      ∃ used rest, tokens = used ++ rest ∧ phrase.Breaks allowed ending diagnostic used rest

theorem Complains.mono {before : List TokenKind} {culprit : Token} {diagnostic : Diagnostic}
    (complains : first.Complains before culprit diagnostic) {context : List TokenKind}
    (viable : ∀ word, first.Viable word → second.Viable (context ++ word)) :
    second.Complains (context ++ before) culprit diagnostic := by
  cases complains with
  | unexpected outside possible =>
      refine .unexpected outside fun kind member => ?_
      rw [List.append_assoc]
      exact viable _ (possible kind member)
  | notOperand => exact .notOperand

namespace Recognises

/-- No token is used up where the phrase may be empty and cannot go on. -/
theorem nothing (nullable : phrase.Derives [])
    (last : ∀ after, allowed after → ∀ word, Alike word tokens →
      phrase.FollowedBy after word → after word) (value : α) :
    phrase.Recognises allowed ending tokens (.ok (value, tokens)) :=
  ⟨[], rfl, nullable, last⟩

/-- The same after a look at the next token. -/
theorem settled (nullable : phrase.Derives [])
    (last : ∀ after, allowed after → ∀ word, Alike word tokens →
      phrase.FollowedBy after word → after word) (value : α) :
    phrase.Recognises allowed ending tokens (settle ending value tokens).result := by
  cases seen : current ending tokens with
  | ok token =>
      rw [settle, seen]
      exact nothing nullable last value
  | error diagnostic =>
      rw [settle, seen]
      cases tokens with
      | nil => exact .inl seen
      | cons first rest => cases seen

/-- One phrase among several, chosen by the token that it begins with. -/
theorem choose {outcome : Except Diagnostic (α × List Token)}
    (recognises : first.Recognises others ending tokens outcome)
    (within : ∀ word, first.Derives word → second.Derives word)
    (permits : ∀ after, allowed after → others after)
    (chosen : ∀ after, allowed after → ∀ word, Alike word tokens →
      second.FollowedBy after word → first.FollowedBy after word) :
    second.Recognises allowed ending tokens outcome := by
  cases outcome with
  | ok outcome =>
      rcases recognises with ⟨used, rfl, ends⟩
      refine ⟨used, rfl, within _ ends.derives, ?_⟩
      intro after permitted word alike followed
      exact ends.last after (permits after permitted) word alike
        (chosen after permitted _ (alike.append used) followed)
  | error diagnostic =>
      rcases recognises with fault | ⟨used, rest, rfl, breaks⟩
      · exact .inl fault
      · refine .inr ⟨used, rest, rfl, breaks.viable.mono within, ?_, ?_⟩
        · rcases breaks.complains with ⟨culprit, seen, complains⟩
          exact ⟨culprit, seen,
            @complains.mono _ second _ _ _ [] fun word viable => viable.mono within⟩
        · intro after permitted word alike followed
          exact breaks.never after (permits after permitted) word alike
            (chosen after permitted _ (alike.append used) followed)

/-- One phrase after another.  What follows the first is the second and what follows both. -/
theorem andThen {bound other : Nat} {parsed : Parsed α bound}
    {next : α → (rest : List Token) → rest.length < bound → Parsed β other}
    (one : first.Recognises others ending tokens parsed.result)
    (two : ∀ value rest fewer,
      second.Recognises allowed ending rest (next value rest fewer).result)
    (permits : ∀ after, allowed after → others (second.FollowedBy after))
    (possible : second.Viable []) :
    (sequence first second).Recognises allowed ending tokens (parsed.andThen next).result := by
  cases parsed with
  | stopped diagnostic =>
      rcases one with fault | ⟨used, rest, split, breaks⟩
      · exact .inl fault
      · refine .inr ⟨used, rest, split, breaks.viable.inFirst possible, ?_, ?_⟩
        · rcases breaks.complains with ⟨culprit, seen, complains⟩
          exact ⟨culprit, seen,
            @complains.mono _ (sequence first second) _ _ _ [] fun word viable =>
              viable.inFirst possible⟩
        · intro after permitted word alike followed
          rw [followedBy_sequence] at followed
          exact breaks.never _ (permits after permitted) word alike followed
  | done value rest fewer =>
      rcases one with ⟨used, rfl, ends⟩
      -- Whatever both phrases make of the input, the second one makes of what is left of it.
      have onward : ∀ after, allowed after → ∀ word, Alike word rest →
          (sequence first second).FollowedBy after (used.map Token.kind ++ word) →
            second.FollowedBy after word := by
        intro after permitted word alike followed
        rw [followedBy_sequence] at followed
        exact ends.last _ (permits after permitted) word alike followed
      have further := two value rest fewer
      change Recognises _ _ _ _ (next value rest fewer).result
      cases outcome : (next value rest fewer).result with
      | ok outcome =>
          rw [outcome] at further
          rcases further with ⟨more, rfl, moreEnds⟩
          refine ⟨used ++ more, (List.append_assoc ..).symm, ?_, ?_⟩
          · rw [List.map_append]
            exact .sequence ends.derives moreEnds.derives
          · intro after permitted word alike followed
            rw [List.map_append, List.append_assoc] at followed
            exact moreEnds.last after permitted word alike
              (onward after permitted _ (alike.append more) followed)
      | error diagnostic =>
          rw [outcome] at further
          rcases further with fault | ⟨more, last, rfl, breaks⟩
          · exact .inl fault
          · refine .inr ⟨used ++ more, last, (List.append_assoc ..).symm, ?_, ?_, ?_⟩
            · rw [List.map_append]
              exact breaks.viable.inSecond ends.derives
            · rcases breaks.complains with ⟨culprit, seen, complains⟩
              rw [List.map_append]
              exact ⟨culprit, seen, complains.mono fun word viable =>
                viable.inSecond ends.derives⟩
            · intro after permitted word alike followed
              rw [List.map_append, List.append_assoc] at followed
              exact breaks.never after permitted word alike
                (onward after permitted _ (alike.append more) followed)

/-- What is made of the value does not matter. -/
theorem value {bound other : Nat} {parsed : Parsed α bound}
    {next : α → (rest : List Token) → rest.length < bound → Parsed β other}
    (recognises : phrase.Recognises allowed ending tokens parsed.result)
    (keeps : ∀ value rest fewer, ∃ result, (next value rest fewer).result = .ok (result, rest)) :
    phrase.Recognises allowed ending tokens (parsed.andThen next).result := by
  cases parsed with
  | stopped diagnostic => exact recognises
  | done value rest fewer =>
      rcases keeps value rest fewer with ⟨result, same⟩
      change Recognises _ _ _ _ (next value rest fewer).result
      rw [same]
      exact recognises

/-- A token of one of the kinds at the front, and a phrase behind it. -/
theorem cons {kinds : List TokenKind} {token : Token} (member : token.kind ∈ kinds)
    {outcome : Except Diagnostic (α × List Token)}
    (recognises : phrase.Recognises allowed ending tokens outcome) :
    (sequence (.token kinds) phrase).Recognises allowed ending (token :: tokens) outcome := by
  have derives : (Phrase.token kinds).Derives [token.kind] := .token member
  cases outcome with
  | ok outcome =>
      rcases recognises with ⟨used, rfl, ends⟩
      refine ⟨token :: used, rfl, .sequence derives ends.derives, ?_⟩
      intro after permitted word alike followed
      rw [List.map_cons, List.cons_append, followedBy_sequence, followedBy_token_cons] at followed
      exact ends.last after permitted word alike followed.2
  | error diagnostic =>
      rcases recognises with fault | ⟨used, rest, rfl, breaks⟩
      · exact .inl fault
      · refine .inr ⟨token :: used, rest, rfl, breaks.viable.inSecond derives, ?_, ?_⟩
        · rcases breaks.complains with ⟨culprit, seen, complains⟩
          exact ⟨culprit, seen, @complains.mono _ _ _ _ _ [token.kind] fun word viable =>
            viable.inSecond derives⟩
        · intro after permitted word alike followed
          rw [List.map_cons, List.cons_append, followedBy_sequence,
            followedBy_token_cons] at followed
          exact breaks.never after permitted word alike followed.2

/-- A phrase among several, of which no other one begins with the token at the front. -/
theorem begins {whole : Phrase} {kinds : List TokenKind} {token : Token}
    (member : token.kind ∈ kinds) {outcome : Except Diagnostic (α × List Token)}
    (recognises : phrase.Recognises allowed ending tokens outcome)
    (within : ∀ word, (sequence (.token kinds) phrase).Derives word → whole.Derives word)
    (alone : ∀ after, allowed after → ∀ word, whole.FollowedBy after (token.kind :: word) →
      phrase.FollowedBy after word) :
    whole.Recognises allowed ending (token :: tokens) outcome := by
  apply choose (recognises.cons member) within (fun _ => id)
  intro after permitted word alike followed
  rcases alike.exists_cons with ⟨others, rfl⟩
  rw [followedBy_sequence, followedBy_token_cons]
  exact ⟨member, alone after permitted others followed⟩

/-- Reading stops at once, at a token that cannot begin the phrase. -/
theorem stopped {complaint : Token → Diagnostic} (possible : phrase.Viable [])
    (never : ∀ after, allowed after → ∀ word, Alike word tokens → ¬ phrase.FollowedBy after word)
    (complains : ∀ culprit, current ending tokens = .ok culprit →
      phrase.Complains [] culprit (complaint culprit)) :
    phrase.Recognises allowed ending tokens
      (.error (blame ending complaint tokens) : Except Diagnostic (α × List Token)) := by
  rw [blame]
  cases seen : current ending tokens with
  | ok culprit =>
      have blamed := complains culprit seen
      exact .inr ⟨[], tokens, rfl, possible, ⟨culprit, seen, blamed⟩, never⟩
  | error diagnostic =>
      cases tokens with
      | nil => exact .inl seen
      | cons first rest => cases seen

/-- A category is its phrase. -/
theorem category {category : Category} {outcome : Except Diagnostic (α × List Token)}
    (recognises : category.phrase.Recognises allowed ending tokens outcome) :
    (Phrase.category category).Recognises allowed ending tokens outcome :=
  recognises.choose (fun _ => .category) (fun _ => id) fun _ _ _ _ followed => by
    rwa [followedBy_category] at followed

/-- The token at the front is used up. -/
theorem one {kinds : List TokenKind} {token : Token} (member : token.kind ∈ kinds) (value : α) :
    (Phrase.token kinds).Recognises allowed ending (token :: tokens) (.ok (value, tokens)) := by
  refine ⟨[token], rfl, .token member, ?_⟩
  intro after _ word _ followed
  exact (followedBy_token_cons.mp followed).2

/-- Taking a token recognises a token of the kinds. -/
theorem taken (final : ∀ token, ending = .ok token → token.kind = .endOfInput)
    {kinds : List TokenKind} (nonempty : kinds ≠ []) (real : .endOfInput ∉ kinds)
    (tokens : List Token) :
    (Phrase.token kinds).Recognises allowed ending tokens
      (takeOneOf ending kinds tokens).result := by
  have viable : ∀ kind ∈ kinds, (Phrase.token kinds).Viable [kind] :=
    fun kind member => .of_derives (.token member)
  have possible : (Phrase.token kinds).Viable [] := by
    rcases List.exists_mem_of_ne_nil kinds nonempty with ⟨kind, member⟩
    exact ⟨[kind], .token member⟩
  cases tokens with
  | nil =>
      rw [takeOneOf]
      apply stopped possible
      · intro after _ word alike followed
        rw [alike.eq_nil] at followed
        exact followedBy_token_nil followed
      · intro culprit seen
        refine .unexpected ?_ viable
        rw [final culprit seen]
        exact real
  | cons token rest =>
      by_cases member : token.kind ∈ kinds
      · rw [takeOneOf, if_pos member]
        exact one member token
      · rw [takeOneOf, if_neg member]
        apply @stopped _ _ _ ending (token :: rest) (unexpected kinds) possible
        · intro after _ word alike followed
          rcases alike.exists_cons with ⟨others, rfl⟩
          exact member (followedBy_token_cons.mp followed).1
        · intro culprit seen
          cases seen
          exact .unexpected member viable

theorem takenOnly (final : ∀ token, ending = .ok token → token.kind = .endOfInput)
    {kind : TokenKind} (real : .endOfInput ∉ [kind]) (tokens : List Token) :
    (only kind).Recognises allowed ending tokens (takeOneOf ending [kind] tokens).result :=
  taken final (List.cons_ne_nil kind []) real tokens

/-- A token of the kinds, and then another phrase, whatever follows that. -/
theorem takenThen (final : ∀ token, ending = .ok token → token.kind = .endOfInput)
    {kinds : List TokenKind} (nonempty : kinds ≠ []) (real : .endOfInput ∉ kinds) {bound : Nat}
    {next : Token → (rest : List Token) → rest.length < tokens.length → Parsed α bound}
    (onward : ∀ value rest fewer,
      second.Recognises allowed ending rest (next value rest fewer).result)
    (possible : second.Viable []) :
    (sequence (.token kinds) second).Recognises allowed ending tokens
      ((takeOneOf ending kinds tokens).andThen next).result := by
  have anything : (Phrase.token kinds).Recognises (fun _ => True) ending tokens
      (takeOneOf ending kinds tokens).result := taken final nonempty real tokens
  exact anything.andThen onward (fun _ _ => trivial) possible

end Recognises

end Phrase

end Scriptlet
