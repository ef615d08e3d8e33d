import Scriptlet.Proofs.Phrase.Statements
import Scriptlet.Proofs.Reading.Statements

/-!
# Programs and wrong programs

Reading a source text compared with the grammar.  Up to the limit on nesting, the texts that can be
read are the sentences of the grammar (`parse_ok_iff_sentence`).  A text that cannot be read is
reported at its first wrong token: what stands before it could still become a sentence, and nothing
that begins like this and goes on with the token can (`parse_error_earliest`).
-/

namespace Scriptlet

open Descent

/-- A sequence of kinds is a program of the grammar. -/
def Sentence (word : List TokenKind) : Prop := (Phrase.category .program).Derives word

/-- A sequence of kinds is the beginning of a program of the grammar. -/
def Beginning (word : List TokenKind) : Prop := (Phrase.category .program).Viable word

variable {ending : Except Diagnostic Token} {tokens : List Token}

/-- Reading statements up to the end recognises a program. -/
theorem program_recognises (final : ∀ token, ending = .ok token → token.kind = .endOfInput)
    (tokens : List Token) :
    (Phrase.category .program).Recognises (Phrase.Closes []) ending tokens
      (statementsFrom ending [] tokens).result :=
  .category (Phrase.statementsFrom_recognises final [] (by simp) tokens)

/-- Nothing at all closes a program. -/
theorem closes_nothing : Phrase.Closes [] (· = []) := by
  intro kind rest impossible
  cases impossible

/-- A program that is read is a sentence. -/
theorem sentence_of_program (final : ∀ token, ending = .ok token → token.kind = .endOfInput)
    {body : List Statement} (read : program ending tokens = .ok body) :
    Sentence (tokens.map Token.kind) := by
  have recognises := program_recognises final tokens
  rw [program] at read
  cases outcome : (statementsFrom ending [] tokens).result with
  | error diagnostic =>
      rw [outcome] at read
      cases read
  | ok result =>
      rcases result with ⟨statements, rest⟩
      rcases Parse.rest_of_statementsFrom outcome with ⟨rfl, _⟩
      rw [outcome] at recognises
      rcases recognises with ⟨used, rfl, ends⟩
      rw [List.append_nil]
      exact ends.derives

/-- A program that is not read breaks somewhere, unless a fault ends its tokens. -/
theorem breaks_of_program (final : ∀ token, ending = .ok token → token.kind = .endOfInput)
    {diagnostic : Diagnostic} (failed : program ending tokens = .error diagnostic) :
    ending = .error diagnostic ∨
      ∃ before rest, tokens = before ++ rest ∧
        (Phrase.category .program).Breaks (Phrase.Closes []) ending diagnostic before rest := by
  have recognises := program_recognises final tokens
  rw [program] at failed
  cases outcome : (statementsFrom ending [] tokens).result with
  | ok result =>
      rw [outcome] at failed
      cases failed
  | error other =>
      rw [outcome] at failed recognises
      cases failed
      exact recognises

/-- Where a program breaks, no sentence goes on like the tokens. -/
theorem Phrase.Breaks.not_sentence {diagnostic : Diagnostic} {before rest : List Token}
    (breaks : (Phrase.category .program).Breaks (Phrase.Closes []) ending diagnostic before rest)
    {word : List TokenKind} (alike : Alike word rest) :
    ¬ Sentence (before.map Token.kind ++ word) := by
  intro sentence
  exact breaks.never _ closes_nothing word alike (Phrase.derives_iff_followedBy.mp sentence)

/-! ## Which texts can be read -/

/-- Unless it nests too deeply, a source text that can be cut into tokens can be read if and only if
the kinds of its tokens are a sentence of the grammar. -/
theorem parse_ok_iff_sentence {source : String} {file : Option String}
    (lexed : tokenize source file = .ok tokens)
    (shallow : ∀ limit position,
      parse source file ≠ .error (.failed ⟨.nestingTooDeep limit, position⟩)) :
    (∃ block, parse source file = .ok block) ↔ Sentence (tokens.map Token.kind) := by
  have final := (Cursor.ofSource source file).stream.final
  have parsed := parse_eq_program source file
  rcases Cursor.stream_ofSource lexed with ⟨sameTokens, sameEnding⟩
  rw [sameEnding] at final
  rw [sameTokens, sameEnding] at parsed
  rcases parsed with ⟨position, deep⟩ | parsed
  · exact absurd deep (shallow _ position)
  cases outcome : program (.ok (.closing file tokens)) tokens with
  | ok body =>
      rw [outcome] at parsed
      rcases parsed with ⟨last, _, same⟩
      exact ⟨fun _ => sentence_of_program final outcome, fun _ => ⟨_, same⟩⟩
  | error diagnostic =>
      rw [outcome] at parsed
      constructor
      · intro read
        rcases read with ⟨block, same⟩
        cases parsed.symm.trans same
      · intro sentence
        rcases breaks_of_program final outcome with fault | ⟨before, rest, rfl, breaks⟩
        · cases fault
        · rw [List.map_append] at sentence
          exact absurd sentence (breaks.not_sentence (Alike.refl rest))

/-- The `else` of `if ($a) if (!@b()) $c = 1; else $c = 2;` may belong to either conditional.  The
text can be read, and it is a sentence. -/
theorem parse_ok_iff_sentence_dangling :
    ∃ tokens, tokenize "if ($a) if (!@b()) $c = 1; else $c = 2;" none = .ok tokens ∧
      (∃ block, parse "if ($a) if (!@b()) $c = 1; else $c = 2;" none = .ok block) ∧
      Sentence (tokens.map Token.kind) := by
  have lexes : (tokenize "if ($a) if (!@b()) $c = 1; else $c = 2;" none).isOk = true := by
    decide +kernel
  have reads : (parse "if ($a) if (!@b()) $c = 1; else $c = 2;" none).isOk = true := by
    decide +kernel
  cases lexed : tokenize "if ($a) if (!@b()) $c = 1; else $c = 2;" none with
  | error diagnostic =>
      rw [lexed] at lexes
      cases lexes
  | ok tokens =>
      cases read : parse "if ($a) if (!@b()) $c = 1; else $c = 2;" none with
      | error halt =>
          rw [read] at reads
          cases reads
      | ok block =>
          refine ⟨tokens, rfl, ⟨block, rfl⟩, (parse_ok_iff_sentence lexed ?_).mp ⟨block, read⟩⟩
          intro limit position deep
          cases read.symm.trans deep

/-! ## Where texts go wrong -/

/-- The token `culprit` is the first wrong one among the items that a source yields: what stands
before it begins a program, and no program goes on with it.  At the end of the input it is the token
that stands for the end, and what stands before it is no program. -/
structure FirstWrong (file : Option String) (items : List (Except Diagnostic Token))
    (before : List Token) (culprit : Token) : Prop where
  beginning : Beginning (before.map Token.kind)
  wrong : (∃ rest, items = before.map .ok ++ .ok culprit :: rest ∧
      ¬ Beginning (before.map Token.kind ++ [culprit.kind])) ∨
    items = before.map .ok ∧ culprit = .closing file before ∧ ¬ Sentence (before.map Token.kind)

/-- Where the program of a source breaks, there is its first wrong token. -/
theorem Phrase.Breaks.firstWrong {source : String} {file : Option String}
    {diagnostic : Diagnostic} {before rest : List Token} {culprit : Token}
    (split : (Cursor.ofSource source file).stream.tokens = before ++ rest)
    (breaks : (Phrase.category .program).Breaks (Phrase.Closes [])
      (Cursor.ofSource source file).stream.ending diagnostic before rest)
    (seen : current (Cursor.ofSource source file).stream.ending rest = .ok culprit) :
    FirstWrong file (Cursor.ofSource source file).drain.1 before culprit := by
  refine ⟨breaks.viable, ?_⟩
  rw [Cursor.drain_eq_items, TokenStream.items, split]
  cases rest with
  | nil =>
      change (Cursor.ofSource source file).stream.ending = .ok culprit at seen
      have closing := Cursor.stream_ending seen
      rw [split, List.append_nil] at closing
      refine .inr ⟨?_, closing, fun sentence => breaks.not_sentence (.refl []) ?_⟩
      · rw [seen, List.append_nil, List.append_nil]
      · rwa [List.map_nil, List.append_nil]
  | cons token rest =>
      cases seen
      rw [List.map_append, List.map_cons, List.append_assoc, List.cons_append]
      refine .inl ⟨_, rfl, ?_⟩
      intro completed
      rcases completed with ⟨more, derives⟩
      rw [List.append_assoc] at derives
      have alike : Alike (culprit.kind :: more) (culprit :: rest) := rfl
      exact breaks.not_sentence alike derives

/-- A complaint about a token or about a missing operand names the first wrong token of the source
and stands where that token begins.  Every kind that it expects instead would do. -/
theorem parse_error_earliest {source : String} {file : Option String} {diagnostic : Diagnostic}
    (failed : parse source file = .error (.failed diagnostic))
    (complaint : (∃ expected received text,
        diagnostic.cause = .unexpectedToken expected received text) ∨
      ∃ text, diagnostic.cause = .expectedExpression text) :
    ∃ before culprit, FirstWrong file (Cursor.ofSource source file).drain.1 before culprit ∧
      (Phrase.category .program).Complains (before.map Token.kind) culprit diagnostic := by
  have syntactic : diagnostic.cause.phase = .syntactic := by
    obtain ⟨_, _, _, cause⟩ | ⟨_, cause⟩ := complaint <;> rw [cause] <;> rfl
  rcases parse_eq_program source file with ⟨position, deep⟩ | parsed
  · cases failed.symm.trans deep
    obtain ⟨_, _, _, impossible⟩ | ⟨_, impossible⟩ := complaint <;> cases impossible
  cases outcome : program (Cursor.ofSource source file).stream.ending
      (Cursor.ofSource source file).stream.tokens with
  | ok body =>
      rw [outcome] at parsed
      rcases parsed with ⟨last, _, same⟩
      cases failed.symm.trans same
  | error other =>
      rw [outcome] at parsed
      cases failed.symm.trans parsed
      obtain fault | ⟨before, rest, split, breaks⟩ :=
        breaks_of_program (Cursor.ofSource source file).stream.final outcome
      · rw [Cursor.stream_fault fault] at syntactic
        cases syntactic
      · rcases breaks.complains with ⟨culprit, seen, complains⟩
        exact ⟨before, culprit, breaks.firstWrong split seen, complains⟩

/-- The `else` of `if (1) $x = 1 else $x = 2;` comes where a semicolon has to stand. -/
theorem parse_error_earliest_else :
    ∃ diagnostic, parse "if (1) $x = 1 else $x = 2;" none = .error (.failed diagnostic) ∧
      ∃ before culprit,
        FirstWrong none (Cursor.ofSource "if (1) $x = 1 else $x = 2;" none).drain.1 before culprit ∧
        (Phrase.category .program).Complains (before.map Token.kind) culprit diagnostic := by
  have failed : parse "if (1) $x = 1 else $x = 2;" none = .error (.failed
      ⟨.unexpectedToken [.semicolon] .elseWord "else", ⟨14, 1, 15, "shell"⟩⟩) := by
    decide +kernel
  exact ⟨_, failed, parse_error_earliest failed (.inl ⟨_, _, _, rfl⟩)⟩

end Scriptlet
