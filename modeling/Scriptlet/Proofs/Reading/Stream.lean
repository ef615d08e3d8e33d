import Scriptlet.Proofs.Lexing.Stream
import Scriptlet.Reader.Basic

/-!
# What a reader is going to see

A reader sees its lookahead and then the stream of its cursor.  Looking at a token leaves what is
seen as it is, and using a token up takes it off the front.  After this module no proof about a
production opens a cursor again.
-/

namespace Scriptlet

namespace Reader

/-- The tokens that a reader is going to see.  Its lookahead comes first, unless that is the end of
the input already. -/
def stream (reader : Reader) : TokenStream :=
  match reader.lookahead with
  | none => reader.cursor.stream
  | some token =>
      if final : token.kind = .endOfInput then
        .closed token final
      else
        reader.cursor.stream.push token final

/-- `reader.Reads tokens ending` says that the reader knows the language and is going to see the
tokens and then what ends them. -/
structure Reads (reader : Reader) (tokens : List Token)
    (ending : Except Diagnostic Token) : Prop where
  tokens_eq : reader.stream.tokens = tokens
  ending_eq : reader.stream.ending = ending
  grammar_eq : reader.grammar = .standard

namespace Reads

variable {reader : Reader} {tokens : List Token} {ending : Except Diagnostic Token}

theorem real (reads : reader.Reads tokens ending) :
    ∀ token ∈ tokens, token.kind ≠ .endOfInput := by
  rw [← reads.tokens_eq]
  exact reader.stream.real

theorem final (reads : reader.Reads tokens ending) :
    ∀ token, ending = .ok token → token.kind = .endOfInput := by
  rw [← reads.ending_eq]
  exact reader.stream.final

/-- Only the grammar, the cursor and the lookahead matter to what is read. -/
theorem of_same {other : Reader} (reads : reader.Reads tokens ending)
    (cursor : other.cursor = reader.cursor) (lookahead : other.lookahead = reader.lookahead)
    (grammar : other.grammar = reader.grammar) : other.Reads tokens ending := by
  have same : other.stream = reader.stream := by
    simp only [stream, cursor, lookahead]
  constructor
  · rw [same, reads.tokens_eq]
  · rw [same, reads.ending_eq]
  · rw [grammar, reads.grammar_eq]

/-- There are at most as many tokens to come as the reader counts. -/
theorem length_le_unread (reads : reader.Reads tokens ending) :
    tokens.length ≤ reader.unread := by
  have rest := reader.cursor.length_stream_le
  rw [← reads.tokens_eq, stream, unread]
  cases lookahead : reader.lookahead with
  | none => simpa using rest
  | some token =>
      by_cases final : token.kind = .endOfInput
      · simp [final, TokenStream.closed]
      · simpa [final, TokenStream.push] using rest

end Reads

end Reader

namespace Parse

section Sequence

variable {α β : Type} {reader after : Reader} {first : Parse α} {second : α → Parse β}

theorem bind_of_ok {value : α} (ran : first reader = .ok value after) :
    (first >>= second) reader = second value after := by
  change EStateM.bind first second reader = _
  rw [EStateM.bind, ran]

theorem bind_of_error {halt : Halt} (ran : first reader = .error halt after) :
    (first >>= second) reader = .error halt after := by
  change EStateM.bind first second reader = _
  rw [EStateM.bind, ran]

theorem bind_of_same {other : Reader} {otherFirst : Parse α}
    (same : first reader = otherFirst other) :
    (first >>= second) reader = (otherFirst >>= second) other := by
  change EStateM.bind first second reader = EStateM.bind otherFirst second other
  rw [EStateM.bind, EStateM.bind, same]

end Sequence

variable {reader : Reader} {tokens : List Token} {ending : Except Diagnostic Token}

/-- Pulling a token off the cursor is reading its stream. -/
theorem pull_spec (reader : Reader) :
    (∃ token after real, reader.pull = (.ok token, after) ∧
        reader.cursor.stream = after.stream.push token real) ∨
      (∃ diagnostic after, reader.pull = (.error diagnostic, after) ∧
        reader.cursor.stream = .broken diagnostic) ∨
      reader.pull = (.ok (.endOfInput reader.cursor.position), reader.cursor) ∧
        reader.cursor.stream = .ended reader.cursor.position := by
  simp only [Reader.pull]
  cases more : reader.cursor.hasNext with
  | false => exact .inr (.inr ⟨rfl, Cursor.stream_of_end more⟩)
  | true =>
      simp only [if_true]
      cases read : reader.cursor.nextToken with
      | mk outcome after =>
          cases outcome with
          | error diagnostic =>
              exact .inr (.inl ⟨diagnostic, after, rfl, Cursor.stream_of_fault more read⟩)
          | ok token =>
              exact .inl ⟨token, after, Cursor.nextToken_real read, rfl,
                Cursor.stream_of_token more read⟩

/-- Looking at the current token changes nothing that will be read. -/
theorem peek_of_current {token : Token} (reads : reader.Reads tokens ending)
    (seen : current ending tokens = .ok token) :
    ∃ after, peek reader = .ok token after ∧ after.Reads tokens ending := by
  rcases reads with ⟨rfl, rfl, grammar⟩
  cases lookahead : reader.lookahead with
  | some held =>
      refine ⟨reader, ?_, rfl, rfl, grammar⟩
      simp only [Reader.stream, lookahead] at seen
      simp only [peek, lookahead]
      split at seen
      next => cases seen; rfl
      next => cases seen; rfl
  | none =>
      simp only [Reader.stream, lookahead] at seen ⊢
      simp only [peek, lookahead]
      obtain ⟨token, after, real, pulled, same⟩ | ⟨diagnostic, after, pulled, same⟩ |
        ⟨pulled, same⟩ := pull_spec reader
      · rw [same] at seen ⊢
        cases seen
        simp only [pulled]
        refine ⟨_, rfl, ?_, ?_, grammar⟩ <;> simp [Reader.stream, real]
      · rw [same] at seen
        cases seen
      · rw [same] at seen ⊢
        cases seen
        simp only [pulled]
        refine ⟨_, rfl, ?_, ?_, grammar⟩ <;>
          simp [Reader.stream, Token.endOfInput, TokenStream.ended, TokenStream.closed]

/-- A fault shows as soon as the token behind the last one is asked for. -/
theorem peek_of_fault {diagnostic : Diagnostic} (reads : reader.Reads tokens ending)
    (seen : current ending tokens = .error diagnostic) :
    ∃ after, peek reader = .error (.failed diagnostic) after := by
  rcases reads with ⟨rfl, rfl, grammar⟩
  cases lookahead : reader.lookahead with
  | some held =>
      simp only [Reader.stream, lookahead] at seen
      split at seen
      next => cases seen
      next => cases seen
  | none =>
      simp only [Reader.stream, lookahead] at seen
      simp only [peek, lookahead]
      obtain ⟨token, after, real, pulled, same⟩ | ⟨diagnostic, after, pulled, same⟩ |
        ⟨pulled, same⟩ := pull_spec reader
      · rw [same] at seen
        cases seen
      · rw [same] at seen
        cases seen
        exact ⟨_, by rw [pulled]⟩
      · rw [same] at seen
        cases seen

/-- Using up a token takes it off the front of the stream. -/
theorem advance_of_cons {token : Token} (reads : reader.Reads (token :: tokens) ending) :
    ∃ after, advance reader = .ok token after ∧ after.Reads tokens ending := by
  rcases reads with ⟨sameTokens, rfl, grammar⟩
  cases lookahead : reader.lookahead with
  | some held =>
      simp only [Reader.stream, lookahead] at sameTokens ⊢
      simp only [advance, lookahead]
      split at sameTokens
      next => cases sameTokens
      next real =>
        rcases List.cons.inj sameTokens with ⟨rfl, rest⟩
        refine ⟨_, rfl, ?_, ?_, grammar⟩
        · simpa [Reader.stream] using rest
        · simp [Reader.stream, real, TokenStream.push]
  | none =>
      simp only [Reader.stream, lookahead] at sameTokens ⊢
      simp only [advance, lookahead]
      obtain ⟨pulledToken, after, real, pulled, same⟩ | ⟨diagnostic, after, pulled, same⟩ |
        ⟨pulled, same⟩ := pull_spec reader
      · rw [same] at sameTokens ⊢
        rcases List.cons.inj sameTokens with ⟨rfl, rest⟩
        simp only [pulled]
        refine ⟨_, rfl, ?_, ?_, grammar⟩
        · simpa [Reader.stream, lookahead] using rest
        · simp [Reader.stream, TokenStream.push]
      · rw [same] at sameTokens
        cases sameTokens
      · rw [same] at sameTokens
        cases sameTokens

/-! ## What a step changes -/

section Steps

variable {α : Type} {after : Reader} {token : Token}

/-- The reader that a run leaves, with a result or without. -/
def left : EStateM.Result Halt Reader α → Reader
  | .ok _ after => after
  | .error _ after => after

/-- What a step of a reader may change: the cursor moves on, and the lookahead comes and goes. -/
structure Moved (reader after : Reader) : Prop where
  grammar : after.grammar = reader.grammar
  depth : after.depth = reader.depth
  deepest : after.deepest = reader.deepest

theorem moved_peek (reader : Reader) : Moved reader (left (peek reader)) := by
  rw [peek]
  split
  · exact ⟨rfl, rfl, rfl⟩
  · split <;> exact ⟨rfl, rfl, rfl⟩

theorem moved_advance (reader : Reader) : Moved reader (left (advance reader)) := by
  rw [advance]
  split
  · exact ⟨rfl, rfl, rfl⟩
  · split <;> exact ⟨rfl, rfl, rfl⟩

theorem pull_rest_le {cursor : Cursor} (pulled : reader.pull = (.ok token, cursor)) :
    cursor.rest.length + (if token.kind ≠ .endOfInput then 1 else 0) ≤
      reader.cursor.rest.length := by
  rw [Reader.pull] at pulled
  split at pulled
  next =>
    have shorter := Cursor.nextToken_rest_lt pulled
    split <;> omega
  next =>
    cases pulled
    simp [Token.endOfInput]

/-- Looking at a token fails for no other reason than a fault in the text. -/
theorem peek_error {reader after : Reader} {halt : Halt}
    (looked : peek reader = .error halt after) :
    ∃ diagnostic, halt = .failed diagnostic ∧ diagnostic.cause.phase = .lexical := by
  rw [peek] at looked
  split at looked
  next => cases looked
  next =>
    split at looked
    next => cases looked
    next diagnostic cursor pulled =>
      cases looked
      rw [Reader.pull] at pulled
      split at pulled
      next => exact ⟨diagnostic, rfl, Cursor.nextToken_fault pulled⟩
      next => cases pulled

/-- Looking at a token leaves it in view, and no more to read than before. -/
theorem peek_keeps (looked : peek reader = .ok token after) :
    after.lookahead = some token ∧ after.unread ≤ reader.unread := by
  rw [peek] at looked
  split at looked
  next held lookahead =>
    cases looked
    exact ⟨lookahead, Nat.le_refl _⟩
  next empty =>
    split at looked
    next shown cursor pulled =>
      cases looked
      refine ⟨rfl, ?_⟩
      have shorter := pull_rest_le pulled
      simpa [Reader.unread, empty] using shorter
    next => cases looked

end Steps

end Parse

/-! ## Readers on their way through a source -/

namespace Reader

/-- `Reaches source file count reader` says that the reader has used up `count` tokens of the
source, however often it looked ahead, and whatever was open when it began.  The end of the input
can be used up any number of times. -/
inductive Reaches (source : String) (file : Option String) : Nat → Reader → Prop where
  | start (depth deepest : Nat) :
      Reaches source file 0 { ofSource source file with depth, deepest }
  | peek {count : Nat} {reader after : Reader} {token : Token} :
      Reaches source file count reader → Parse.peek reader = .ok token after →
      Reaches source file count after
  | advance {count : Nat} {reader after : Reader} {token : Token} :
      Reaches source file count reader → Parse.advance reader = .ok token after →
      Reaches source file (count + 1) after

/-- A lookahead at the end of the input is the end that the cursor sees. -/
def EndsTrue (reader : Reader) : Prop :=
  ∀ token, reader.lookahead = some token → token.kind = .endOfInput →
    reader.cursor.stream.tokens = [] ∧ reader.cursor.stream.ending = .ok token

theorem endsTrue_of_none {reader : Reader} (empty : reader.lookahead = none) :
    reader.EndsTrue := by
  intro token held
  rw [empty] at held
  cases held

theorem peek_endsTrue {reader after : Reader} {token : Token} (ends : reader.EndsTrue)
    (looked : Parse.peek reader = .ok token after) : after.EndsTrue := by
  simp only [Parse.peek] at looked
  cases lookahead : reader.lookahead with
  | some held =>
      rw [lookahead] at looked
      cases looked
      exact ends
  | none =>
      simp only [lookahead] at looked
      obtain ⟨pulled, reached, real, pull, same⟩ | ⟨diagnostic, reached, pull, same⟩ |
        ⟨pull, same⟩ := Parse.pull_spec reader
      · rw [pull] at looked
        cases looked
        intro token held final
        cases held
        exact absurd final real
      · rw [pull] at looked
        cases looked
      · rw [pull] at looked
        cases looked
        intro token held final
        cases held
        rw [same]
        exact ⟨rfl, rfl⟩

theorem advance_lookahead {reader after : Reader} {token : Token}
    (used : Parse.advance reader = .ok token after) : after.lookahead = none := by
  simp only [Parse.advance] at used
  cases lookahead : reader.lookahead with
  | some held =>
      rw [lookahead] at used
      cases used
      rfl
  | none =>
      simp only [lookahead] at used
      split at used
      · cases used
        rfl
      · cases used

/-- Using up the end of the input changes nothing that will be read. -/
theorem advance_of_end {reader after : Reader} {token final : Token} (ends : reader.EndsTrue)
    (reads : reader.Reads [] (.ok final)) (used : Parse.advance reader = .ok token after) :
    after.Reads [] (.ok final) := by
  rcases reads with ⟨noTokens, ended, grammar⟩
  simp only [Parse.advance] at used
  cases lookahead : reader.lookahead with
  | some held =>
      simp only [stream, lookahead] at noTokens ended
      rw [lookahead] at used
      cases used
      split at noTokens
      next atEnd =>
        rw [dif_pos atEnd] at ended
        rcases ends token lookahead atEnd with ⟨nothing, same⟩
        exact ⟨nothing, same.trans ended, grammar⟩
      next => cases noTokens
  | none =>
      simp only [stream, lookahead] at noTokens ended
      simp only [lookahead] at used
      obtain ⟨pulled, reached, real, pull, same⟩ | ⟨diagnostic, reached, pull, same⟩ |
        ⟨pull, same⟩ := Parse.pull_spec reader
      · rw [same] at noTokens
        cases noTokens
      · rw [same] at ended
        cases ended
      · rw [pull] at used
        cases used
        refine ⟨?_, ?_, grammar⟩
        · simpa [stream] using noTokens
        · simpa [stream] using ended

/-- A reader that has used up some tokens of a source is going to see the others. -/
theorem Reaches.reads {source : String} {file : Option String} {tokens : List Token}
    {count : Nat} {reader : Reader} (lexed : tokenize source file = .ok tokens)
    (reached : Reaches source file count reader) :
    reader.Reads (tokens.drop count) (.ok (.closing file tokens)) := by
  have invariant : reader.Reads (tokens.drop count) (.ok (.closing file tokens)) ∧
      reader.EndsTrue := by
    induction reached with
    | start depth deepest =>
        rcases Cursor.stream_ofSource lexed with ⟨same, ended⟩
        exact ⟨⟨same, ended, rfl⟩, endsTrue_of_none rfl⟩
    | @peek count reader after token _ looked ih =>
        rcases ih with ⟨reads, ends⟩
        refine ⟨?_, peek_endsTrue ends looked⟩
        cases seen : current (.ok (.closing file tokens)) (tokens.drop count) with
        | ok shown =>
            rcases Parse.peek_of_current reads seen with ⟨reached, ran, still⟩
            cases ran.symm.trans looked
            exact still
        | error diagnostic =>
            rcases Parse.peek_of_fault reads seen with ⟨reached, ran⟩
            cases ran.symm.trans looked
    | @advance count reader after token _ used ih =>
        rcases ih with ⟨reads, ends⟩
        refine ⟨?_, endsTrue_of_none (advance_lookahead used)⟩
        rw [← List.drop_drop]
        cases left : tokens.drop count with
        | nil =>
            rw [left] at reads
            exact advance_of_end ends reads used
        | cons first rest =>
            rw [left] at reads
            rcases Parse.advance_of_cons reads with ⟨reached, ran, still⟩
            cases ran.symm.trans used
            exact still
  exact invariant.1

end Reader

end Scriptlet
