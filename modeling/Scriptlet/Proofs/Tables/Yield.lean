import Scriptlet.Proofs.Session.Frame

/-!
# Readers with any tables

What a reader is going to see does not depend on its tables, but what it does with it may: with a
rule for the end of the input, that token is used up like any other, and any number of times.  So
the tokens that a production uses up are tokens that the stream `Yields`, the closing one included.

`Meets` says what comes out of a run over whatever tables there are: a value as promised, with the
tokens used up for it, or a halt.  It can rule out that the run was halted because it would repeat
for ever.
-/

namespace Scriptlet

/-! ## Streams -/

/-- The stream gives the tokens one after the other, and `after` is left of it.  The token that
closes a stream is given as often as it is asked for. -/
inductive TokenStream.Yields : TokenStream → List Token → TokenStream → Prop where
  | nothing {stream : TokenStream} : Yields stream [] stream
  | token {stream after : TokenStream} {token : Token} {real : token.kind ≠ .endOfInput}
      {used : List Token} (others : Yields stream used after) :
      Yields (stream.push token real) (token :: used) after
  | closing {after : TokenStream} {token : Token} {final : token.kind = .endOfInput}
      {used : List Token} (others : Yields (.closed token final) used after) :
      Yields (.closed token final) (token :: used) after

/-- Among the tokens is one of the source, which does not stand for the end of the input. -/
def TakesToken (used : List Token) : Prop := ∃ token ∈ used, token.kind ≠ .endOfInput

namespace TakesToken

variable {token : Token} {used more : List Token}

theorem first (real : token.kind ≠ .endOfInput) : TakesToken (token :: used) :=
  ⟨token, List.mem_cons_self, real⟩

theorem before (takes : TakesToken used) : TakesToken (used ++ more) := by
  obtain ⟨token, member, real⟩ := takes
  exact ⟨token, List.mem_append_left more member, real⟩

theorem behind (takes : TakesToken more) : TakesToken (used ++ more) := by
  obtain ⟨token, member, real⟩ := takes
  exact ⟨token, List.mem_append_right used member, real⟩

end TakesToken

namespace TokenStream

theorem eq_of_parts {one other : TokenStream} (tokens : one.tokens = other.tokens)
    (ending : one.ending = other.ending) : one = other := by
  cases one
  cases other
  cases tokens
  cases ending
  rfl

/-- A stream without tokens that does not end in a fault is a closing token. -/
theorem eq_closed {stream : TokenStream} {token : Token} (nothing : stream.tokens = [])
    (ended : stream.ending = .ok token) (final : token.kind = .endOfInput) :
    stream = .closed token final := eq_of_parts nothing ended

namespace Yields

variable {stream middle after : TokenStream} {used more : List Token}

theorem trans (first : stream.Yields used middle) (second : middle.Yields more after) :
    stream.Yields (used ++ more) after := by
  induction first with
  | nothing => exact second
  | token _ ih => exact .token (ih second)
  | closing _ ih => exact .closing (ih second)

/-- Nothing comes behind tokens that was not to come before. -/
theorem tokens_subset (yields : stream.Yields used after) : after.tokens ⊆ stream.tokens := by
  induction yields with
  | nothing => exact List.Subset.refl _
  | token _ ih => exact List.subset_cons_of_subset _ ih
  | closing _ ih => exact ih

/-- What is yielded was to come, or closes the stream. -/
theorem mem_tokens (yields : stream.Yields used after) {token : Token} (member : token ∈ used) :
    token ∈ stream.tokens ∨ token.kind = .endOfInput := by
  induction yields with
  | nothing => cases member
  | token _ ih =>
      cases member with
      | head => exact .inl List.mem_cons_self
      | tail _ later => exact (ih later).imp_left (List.mem_cons_of_mem _)
  | @closing _ _ final _ _ ih =>
      cases member with
      | head => exact .inr final
      | tail _ later => exact ih later

theorem length_le (yields : stream.Yields used after) :
    after.tokens.length ≤ stream.tokens.length := by
  induction yields with
  | nothing => exact Nat.le_refl _
  | token _ ih => exact Nat.le_succ_of_le ih
  | closing _ ih => exact ih

/-- Fewer tokens are to come once one of the source is used up. -/
theorem length_lt (yields : stream.Yields used after) (takes : TakesToken used) :
    after.tokens.length < stream.tokens.length := by
  obtain ⟨token, member, real⟩ := takes
  induction yields with
  | nothing => cases member
  | token others _ => exact Nat.lt_succ_of_le others.length_le
  | @closing _ _ final _ _ ih =>
      cases member with
      | head => exact absurd final real
      | tail _ later => exact ih later

/-- Fewer tokens are to come only if one of the source was used up. -/
theorem takesToken (yields : stream.Yields used after)
    (fewer : after.tokens.length < stream.tokens.length) : TakesToken used := by
  induction yields with
  | nothing => exact absurd fewer (Nat.lt_irrefl _)
  | @token _ _ _ real _ _ _ => exact .first real
  | @closing _ token _ _ _ ih =>
      obtain ⟨other, member, real⟩ := ih fewer
      exact ⟨other, List.mem_cons_of_mem token member, real⟩

end Yields

end TokenStream

/-! ## Readers -/

namespace Reader

variable {reader middle after : Reader} {token : Token} {used more : List Token}

/-- What is to come does not depend on the tables, and there is no more of it than is counted. -/
theorem length_stream_le_unread (reader : Reader) :
    reader.stream.tokens.length ≤ reader.unread := by
  have reads : Reader.Reads { reader with grammar := .standard } reader.stream.tokens
      reader.stream.ending := ⟨rfl, rfl, rfl⟩
  exact reads.length_le_unread

/-- From one reader to another with the same tables, the tokens have been used up. -/
structure Uses (reader : Reader) (used : List Token) (after : Reader) : Prop where
  grammar : after.grammar = reader.grammar
  honest : after.EndsTrue
  yields : reader.stream.Yields used after.stream

namespace Uses

theorem refl (honest : reader.EndsTrue) : reader.Uses [] reader := ⟨rfl, honest, .nothing⟩

theorem trans (first : reader.Uses used middle) (second : middle.Uses more after) :
    reader.Uses (used ++ more) after where
  grammar := second.grammar.trans first.grammar
  honest := second.honest
  yields := first.yields.trans second.yields

end Uses

/-- Looking at a token leaves it in view and uses nothing up. -/
theorem uses_of_peek (honest : reader.EndsTrue) (looked : Parse.peek reader = .ok token after) :
    after.lookahead = some token ∧ reader.Uses [] after := by
  have grammar := (Parse.moved_peek reader).grammar
  rw [looked] at grammar
  refine ⟨(Parse.peek_keeps looked).1, grammar, peek_endsTrue honest looked, ?_⟩
  have same : after.stream = reader.stream := by
    simp only [Parse.peek] at looked
    cases lookahead : reader.lookahead with
    | some held =>
        rw [lookahead] at looked
        cases looked
        rfl
    | none =>
        simp only [lookahead] at looked
        obtain ⟨pulled, reached, real, pull, stream⟩ | ⟨diagnostic, reached, pull, stream⟩ |
          ⟨pull, stream⟩ := Parse.pull_spec reader
        · rw [pull] at looked
          cases looked
          simp [Reader.stream, lookahead, stream, real]
        · rw [pull] at looked
          cases looked
        · rw [pull] at looked
          cases looked
          simp [Reader.stream, lookahead, stream, Token.endOfInput, TokenStream.ended,
            TokenStream.closed]
  rw [same]
  exact .nothing

/-- Using up a token gives the one in view, if there is one in view. -/
theorem uses_of_advance (honest : reader.EndsTrue)
    (used : Parse.advance reader = .ok token after) :
    reader.Uses [token] after ∧ ∀ held, reader.lookahead = some held → token = held := by
  have grammar := (Parse.moved_advance reader).grammar
  rw [used] at grammar
  have cleared := advance_lookahead used
  have inView : ∀ held, reader.lookahead = some held → token = held := by
    intro held lookahead
    rw [Parse.advance, lookahead] at used
    cases used
    rfl
  refine ⟨⟨grammar, endsTrue_of_none cleared, ?_⟩, inView⟩
  have left : after.stream = after.cursor.stream := by
    simp only [Reader.stream, cleared]
  rw [left]
  simp only [Parse.advance] at used
  cases lookahead : reader.lookahead with
  | some held =>
      rw [lookahead] at used
      cases used
      by_cases final : token.kind = .endOfInput
      · obtain ⟨nothing, ended⟩ := honest token lookahead final
        rw [TokenStream.eq_closed nothing ended final]
        simp only [Reader.stream, lookahead, dif_pos final]
        exact .closing .nothing
      · simp only [Reader.stream, lookahead, dif_neg final]
        exact .token .nothing
  | none =>
      simp only [Reader.stream, lookahead] at used ⊢
      obtain ⟨pulled, reached, real, pull, stream⟩ | ⟨diagnostic, reached, pull, stream⟩ |
        ⟨pull, stream⟩ := Parse.pull_spec reader
      · rw [pull] at used
        cases used
        rw [stream]
        exact .token .nothing
      · rw [pull] at used
        cases used
      · rw [pull] at used
        cases used
        rw [stream]
        exact .closing .nothing

end Reader

/-! ## Sessions -/

/-- The contract of a reader that shows the end of the input only where the cursor sees it. -/
def Contract.honest : Contract where
  admits cursor lookahead := ∀ shown ∈ lookahead, shown.kind = .endOfInput →
    cursor.stream.tokens = [] ∧ cursor.stream.ending = .ok shown
  abandons cursor lookahead := ∀ shown ∈ lookahead, shown.kind = .endOfInput →
    cursor.stream.tokens = [] ∧ cursor.stream.ending = .ok shown
  token _ := True
  point _ := True
  halt _ := True
  abandoned holds := holds
  held _ := trivial
  used _ := by
    rintro _ ⟨⟩
  read := by
    rintro cursor after shown more _ read _ ⟨⟩ final
    exact absurd final (Cursor.nextToken_real read)
  fault _ _ _ := ⟨by rintro _ ⟨⟩, trivial⟩
  ended := by
    rintro cursor nothing _ _ ⟨⟩ _
    rw [Cursor.stream_of_end nothing]
    exact ⟨rfl, rfl⟩
  points _ _ _ := trivial
  blamed _ _ := trivial
  endless := trivial
  origin _ := trivial

/-- Whatever a session asks for, and whatever fails, the reader goes on to show the end of the input
only where it is. -/
theorem Reader.Reached.endsTrue {source : String} {file : Option String} {level : Nat}
    {reader : Reader} (reached : Reader.Reached source file level reader) : reader.EndsTrue := by
  induction reached with
  | start => exact Reader.endsTrue_of_none rfl
  | @perform level reader request _ ih =>
      have resumes : Contract.honest.Resumes := fun _ _ holds => holds
      exact (Reader.perform_stepped resumes request reader ih).admits
  | enter _ _ ih => exact ih

/-! ## Runs -/

namespace Parse

/-- What may come out of a run that began with this reader: a value as promised, with the tokens
used up for it and the token left in view, or a halt.  The run repeats for ever only if `repeats`
allows it. -/
def Meets {α : Type} (repeats : Prop) (promised : α → List Token → Option Token → Prop)
    (reader : Reader) : EStateM.Result Halt Reader α → Prop
  | .ok value after => ∃ used, reader.Uses used after ∧ promised value used after.lookahead
  | .error halt _ => halt = .endless → repeats

theorem advance_error {reader after : Reader} {halt : Halt}
    (used : advance reader = .error halt after) : ∃ diagnostic, halt = .failed diagnostic := by
  rw [advance] at used
  split at used
  next => cases used
  next =>
    split at used
    next => cases used
    next diagnostic cursor pulled =>
      cases used
      exact ⟨diagnostic, rfl⟩

namespace Meets

variable {α β : Type} {repeats : Prop} {promised weaker : α → List Token → Option Token → Prop}
  {further : β → List Token → Option Token → Prop} {reader : Reader}
  {run : EStateM.Result Halt Reader α}

theorem mono (meets : Meets repeats promised reader run)
    (implies : ∀ value used view, promised value used view → weaker value used view) :
    Meets repeats weaker reader run := by
  cases run with
  | ok value after =>
      obtain ⟨used, uses, promise⟩ := meets
      exact ⟨used, uses, implies value used _ promise⟩
  | error halt after => exact meets

theorem done {value : α} (honest : reader.EndsTrue) (promise : promised value [] reader.lookahead) :
    Meets repeats promised reader ((pure value : Parse α) reader) :=
  ⟨[], .refl honest, promise⟩

theorem get (honest : reader.EndsTrue) :
    Meets repeats (fun value used _ => used = [] ∧ value = reader) reader
      ((MonadStateOf.get : Parse Reader) reader) := ⟨[], .refl honest, rfl, rfl⟩

/-- What depends on the state of the reader, at this state. -/
theorem consult {next : Reader → Parse α}
    (meets : Meets repeats promised reader (next reader reader)) :
    Meets repeats promised reader (((MonadState.get : Parse Reader) >>= next) reader) := meets

theorem failed (cause : Cause) (position : Position) :
    Meets repeats promised reader ((fail cause position : Parse α) reader) := by
  rintro ⟨⟩

/-- One production after another. -/
theorem bind {first : Parse α} {second : α → Parse β}
    (one : Meets repeats promised reader (first reader))
    (two : ∀ value used after, reader.Uses used after → promised value used after.lookahead →
      Meets repeats (fun result more view => further result (used ++ more) view) after
        (second value after)) :
    Meets repeats further reader ((first >>= second) reader) := by
  cases ran : first reader with
  | error halt after =>
      rw [ran] at one
      rw [bind_of_error ran]
      exact one
  | ok value after =>
      rw [ran] at one
      obtain ⟨used, uses, promise⟩ := one
      have later := two value used after uses promise
      rw [bind_of_ok ran]
      cases ends : second value after with
      | error halt last =>
          rw [ends] at later
          exact later
      | ok result last =>
          rw [ends] at later
          obtain ⟨more, onward, kept⟩ := later
          exact ⟨used ++ more, uses.trans onward, kept⟩

/-- A token that is looked at is then in view. -/
theorem peek (honest : reader.EndsTrue) :
    Meets repeats (fun token used view => used = [] ∧ view = some token ∧
      ∀ held, reader.lookahead = some held → token = held) reader (Parse.peek reader) := by
  cases looked : Parse.peek reader with
  | error halt after =>
      obtain ⟨diagnostic, rfl, _⟩ := peek_error looked
      rintro ⟨⟩
  | ok token after =>
      obtain ⟨view, uses⟩ := Reader.uses_of_peek honest looked
      refine ⟨[], uses, rfl, view, ?_⟩
      intro held lookahead
      rw [Parse.peek, lookahead] at looked
      cases looked
      rfl

/-- Look at a token and go on. -/
theorem look {next : Token → Parse α} (honest : reader.EndsTrue)
    (seen : ∀ token after, reader.Uses [] after → after.lookahead = some token →
      (∀ held, reader.lookahead = some held → token = held) →
      Meets repeats promised after (next token after)) :
    Meets repeats promised reader ((Parse.peek >>= next) reader) := by
  apply (peek honest).bind
  rintro token used after uses ⟨rfl, view, inView⟩
  exact seen token after uses view inView

theorem peekKind (honest : reader.EndsTrue) :
    Meets repeats (fun kind used view => used = [] ∧ ∃ token, kind = token.kind ∧
      view = some token ∧ ∀ held, reader.lookahead = some held → token = held) reader
      (Parse.peekKind reader) := by
  apply look honest
  intro token after uses view inView
  exact .done uses.honest ⟨rfl, token, rfl, view, inView⟩

/-- Look at the kind of a token and go on. -/
theorem lookKind {next : TokenKind → Parse α} (honest : reader.EndsTrue)
    (seen : ∀ token after, reader.Uses [] after → after.lookahead = some token →
      (∀ held, reader.lookahead = some held → token = held) →
      Meets repeats promised after (next token.kind after)) :
    Meets repeats promised reader ((Parse.peekKind >>= next) reader) := by
  apply (peekKind honest).bind
  rintro _ used after uses ⟨rfl, token, rfl, view, inView⟩
  exact seen token after uses view inView

/-- Use up a token: the one in view, if there is one in view. -/
theorem advance (honest : reader.EndsTrue) :
    Meets repeats (fun token used _ => used = [token] ∧
      ∀ held, reader.lookahead = some held → token = held) reader (Parse.advance reader) := by
  cases used : Parse.advance reader with
  | error halt after =>
      obtain ⟨diagnostic, rfl⟩ := advance_error used
      rintro ⟨⟩
  | ok token after =>
      obtain ⟨uses, inView⟩ := Reader.uses_of_advance honest used
      exact ⟨[token], uses, rfl, inView⟩

theorem expectOneOf {kinds : List TokenKind} (honest : reader.EndsTrue) :
    Meets repeats (fun token used _ => used = [token] ∧ token.kind ∈ kinds) reader
      (Parse.expectOneOf kinds reader) := by
  apply look honest
  intro token after uses view _
  by_cases member : token.kind ∈ kinds
  · rw [if_pos member]
    refine (advance uses.honest).mono ?_
    rintro shown used _ ⟨rfl, inView⟩
    rw [inView token view]
    exact ⟨rfl, member⟩
  · rw [if_neg member]
    exact failed _ _

/-- At the limit nothing is read. -/
theorem tooDeep (honest : reader.EndsTrue) (limit : Nat) :
    Meets repeats promised reader (Parse.tooDeep limit reader) :=
  look honest fun _ _ _ _ _ => failed _ _

/-- Opening a level changes nothing that is read. -/
theorem opened {production : Parse α}
    (meets : Meets repeats promised reader.entered (production reader.entered)) :
    Meets repeats promised reader (Parse.opened production reader) := by
  have ran : Parse.opened production reader = match production reader.entered with
      | .ok value after => .ok value after.exited
      | .error halt after => .error halt after.exited := rfl
  rw [ran]
  cases ends : production reader.entered with
  | error halt after =>
      rw [ends] at meets
      exact meets
  | ok value after =>
      rw [ends] at meets
      obtain ⟨used, uses, promise⟩ := meets
      exact ⟨used, ⟨uses.grammar, uses.honest, uses.yields⟩, promise⟩

end Meets

end Parse

end Scriptlet
