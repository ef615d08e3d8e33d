import Scriptlet.Proofs.Lexing.Spelling

/-!
# Streams of tokens

A cursor determines the tokens still to come and what stands behind the last of them: the token for
the end of the input, or the fault that ends reading.  Draining a cursor and gathering its tokens
are views of this one stream.
-/

namespace Scriptlet

/-- The tokens to come and what ends them.  Only the ending can stand for the end of the input, and
a token that ends a stream always does. -/
structure TokenStream where
  tokens : List Token
  ending : Except Diagnostic Token
  real : ∀ token ∈ tokens, token.kind ≠ .endOfInput
  final : ∀ token, ending = .ok token → token.kind = .endOfInput

namespace TokenStream

/-- The stream that has nothing but a token for the end of the input. -/
def closed (token : Token) (final : token.kind = .endOfInput) : TokenStream where
  tokens := []
  ending := .ok token
  real := by simp
  final := by
    intro other equal
    cases equal
    exact final

/-- The stream of an exhausted source. -/
def ended (position : Position) : TokenStream := closed (.endOfInput position) rfl

/-- The stream that a fault ends at once. -/
def broken (diagnostic : Diagnostic) : TokenStream where
  tokens := []
  ending := .error diagnostic
  real := by simp
  final := by simp

/-- The stream with one more token in front. -/
def push (token : Token) (real : token.kind ≠ .endOfInput) (stream : TokenStream) :
    TokenStream where
  tokens := token :: stream.tokens
  ending := stream.ending
  real := List.forall_mem_cons.mpr ⟨real, stream.real⟩
  final := stream.final

/-- What the stream yields, item by item: its tokens, and the fault if there is one. -/
def items (stream : TokenStream) : List (Except Diagnostic Token) :=
  stream.tokens.map .ok ++
    match stream.ending with
    | .ok _ => []
    | .error diagnostic => [.error diagnostic]

/-- Gathering the items of a stream gives its tokens, or its fault. -/
theorem gather_items (stream : TokenStream) :
    gather stream.items = stream.ending.map fun _ => stream.tokens := by
  have general : ∀ tokens : List Token, ∀ ending : Except Diagnostic Token,
      gather (tokens.map .ok ++
        match ending with
        | .ok _ => []
        | .error diagnostic => [.error diagnostic]) = ending.map fun _ => tokens := by
    intro tokens ending
    induction tokens with
    | nil => cases ending <;> rfl
    | cons token tokens ih =>
        simp only [List.map_cons, List.cons_append, gather]
        rw [ih]
        cases ending <;> rfl
  exact general stream.tokens stream.ending

end TokenStream

/-- The token for the end of a source that consists of these tokens.  It stands behind the last of
them, or at the start if there are none. -/
def Token.closing (file : Option String) (tokens : List Token) : Token :=
  .endOfInput ((tokens.getLast?.map fun token => token.span.stop).getD
    (Place.start.inFile (file.getD Cursor.unnamed)))

/-- The token at the front of a list, or what ends the list. -/
def current (ending : Except Diagnostic Token) : List Token → Except Diagnostic Token
  | [] => ending
  | token :: _ => .ok token

namespace Cursor

/-- A token that a cursor reads does not stand for the end of the input. -/
theorem nextToken_real {cursor after : Cursor} {token : Token}
    (read : cursor.nextToken = (.ok token, after)) : token.kind ≠ .endOfInput := by
  simp only [nextToken, Prod.mk.injEq] at read
  rcases read with ⟨outcome, _⟩
  simp only [report] at outcome
  split at outcome
  next kind value reading =>
    cases outcome
    exact (Lexeme.scan_spelled _).real kind value reading
  next => exact absurd outcome (by simp)

/-- A fault that a cursor meets has a lexical cause. -/
theorem nextToken_fault {cursor after : Cursor} {diagnostic : Diagnostic}
    (read : cursor.nextToken = (.error diagnostic, after)) :
    diagnostic.cause.phase = .lexical := by
  simp only [nextToken, Prod.mk.injEq] at read
  rcases read with ⟨outcome, _⟩
  simp only [report] at outcome
  split at outcome
  next => exact absurd outcome (by simp)
  next cause ahead reading =>
    cases outcome
    exact (Lexeme.scan_spelled _).lexical cause ahead reading

/-- The tokens that a cursor is going to read, up to the end or to a fault. -/
def stream (cursor : Cursor) : TokenStream :=
  if cursor.hasNext then
    match read : cursor.nextToken with
    | (.ok token, after) => (stream after).push token (nextToken_real read)
    | (.error diagnostic, _) => .broken diagnostic
  else
    .ended cursor.position
termination_by cursor.rest.length
decreasing_by exact nextToken_rest_lt read

variable {cursor after : Cursor} {token : Token} {diagnostic : Diagnostic}

theorem stream_of_end (nothing : cursor.hasNext = false) :
    cursor.stream = .ended cursor.position := by
  rw [stream]
  simp [nothing]

theorem stream_of_token (more : cursor.hasNext = true)
    (read : cursor.nextToken = (.ok token, after)) :
    cursor.stream = after.stream.push token (nextToken_real read) := by
  rw [stream, if_pos more]
  split
  next other reached equal =>
    rcases Prod.mk.inj (equal.symm.trans read) with ⟨sameToken, sameAfter⟩
    cases sameToken
    cases sameAfter
    rfl
  next other reached equal => exact absurd (equal.symm.trans read) (by simp)

theorem stream_of_fault (more : cursor.hasNext = true)
    (read : cursor.nextToken = (.error diagnostic, after)) :
    cursor.stream = .broken diagnostic := by
  rw [stream, if_pos more]
  split
  next other reached equal => exact absurd (equal.symm.trans read) (by simp)
  next other reached equal =>
    rcases Prod.mk.inj (equal.symm.trans read) with ⟨same, _⟩
    cases same
    rfl

/-- An exhausted cursor yields nothing. -/
theorem drain_exhaust (cursor : Cursor) : cursor.exhaust.drain.1 = [] := by
  have nothing : cursor.exhaust.next = (none, cursor.exhaust) := rfl
  rw [drain]
  split
  next => rfl
  next item reached yielded => exact absurd (nothing.symm.trans yielded) (by simp)

/-- Draining a cursor yields the items of its stream. -/
theorem drain_eq_items (cursor : Cursor) : cursor.drain.1 = cursor.stream.items := by
  rw [drain]
  split
  next reached yielded =>
    simp only [next] at yielded
    split at yielded
    next => split at yielded <;> exact absurd yielded (by simp)
    next nothing =>
      rw [stream_of_end (by simpa using nothing)]
      rfl
  next item reached yielded =>
    have shorter := next_rest_lt yielded
    simp only [next] at yielded
    split at yielded
    next more =>
      split at yielded
      next token after read =>
        rcases Prod.mk.inj yielded with ⟨sameItem, sameAfter⟩
        cases sameItem
        cases sameAfter
        rw [stream_of_token more read]
        simp only [TokenStream.items, TokenStream.push, List.map_cons, List.cons_append]
        exact congrArg _ (drain_eq_items reached)
      next diagnostic after read =>
        rcases Prod.mk.inj yielded with ⟨sameItem, sameAfter⟩
        cases sameItem
        cases sameAfter
        simp only [stream_of_fault more read, drain_exhaust]
        rfl
    next => exact absurd yielded (by simp)
termination_by cursor.rest.length

/-- A token ends where the cursor stands after reading it. -/
theorem nextToken_stop (read : cursor.nextToken = (.ok token, after)) :
    token.span.stop = after.position := by
  simp only [nextToken, Prod.mk.injEq] at read
  rcases read with ⟨outcome, rfl⟩
  simp only [report] at outcome
  split at outcome
  next => cases outcome; rfl
  next => exact absurd outcome (by simp)

/-- What holds at the end and before a fault, and before a token whenever it holds behind the token,
holds of every cursor. -/
theorem stream_induction {motive : Cursor → Prop}
    (ended : ∀ cursor, cursor.hasNext = false → motive cursor)
    (fault : ∀ cursor after diagnostic, cursor.hasNext = true →
      cursor.nextToken = (.error diagnostic, after) → motive cursor)
    (token : ∀ cursor after token, cursor.hasNext = true →
      cursor.nextToken = (.ok token, after) → motive after → motive cursor)
    (cursor : Cursor) : motive cursor := by
  cases more : cursor.hasNext with
  | false => exact ended cursor more
  | true =>
      cases read : cursor.nextToken with
      | mk outcome after =>
          cases outcome with
          | error diagnostic => exact fault cursor after diagnostic more read
          | ok first =>
              have shorter := nextToken_rest_lt read
              exact token cursor after first more read (stream_induction ended fault token after)
termination_by cursor.rest.length

/-- A stream that is not broken ends behind its last token. -/
theorem stream_ending {final : Token} (closed : cursor.stream.ending = .ok final) :
    final = .endOfInput ((cursor.stream.tokens.getLast?.map fun token => token.span.stop).getD
      cursor.position) := by
  induction cursor using stream_induction with
  | ended cursor nothing =>
      rw [stream_of_end nothing] at closed ⊢
      cases closed
      rfl
  | fault cursor after diagnostic more read =>
      rw [stream_of_fault more read] at closed
      cases closed
  | token cursor after token more read ih =>
      rw [stream_of_token more read] at closed ⊢
      simp only [TokenStream.push, List.getLast?_cons]
      rw [ih closed, ← nextToken_stop read]
      cases after.stream.tokens.getLast? <;> rfl

/-- A fault that breaks a stream is a lexical one. -/
theorem stream_fault (broken : cursor.stream.ending = .error diagnostic) :
    diagnostic.cause.phase = .lexical := by
  induction cursor using stream_induction with
  | ended cursor nothing =>
      rw [stream_of_end nothing] at broken
      cases broken
  | fault cursor after diagnostic more read =>
      rw [stream_of_fault more read] at broken
      cases broken
      exact nextToken_fault read
  | token cursor after token more read ih =>
      rw [stream_of_token more read] at broken
      exact ih broken

/-- The stream of a source that can be cut into tokens is those tokens and the end of the input. -/
theorem stream_ofSource {source : String} {file : Option String} {tokens : List Token}
    (lexed : tokenize source file = .ok tokens) :
    (ofSource source file).stream.tokens = tokens ∧
      (ofSource source file).stream.ending = .ok (.closing file tokens) := by
  rw [tokenize, drain_eq_items, TokenStream.gather_items] at lexed
  cases ended : (ofSource source file).stream.ending with
  | error diagnostic =>
      rw [ended] at lexed
      cases lexed
  | ok final =>
      rw [ended] at lexed
      cases lexed
      refine ⟨rfl, ?_⟩
      rw [stream_ending ended]
      rfl

/-- Every token of the stream takes at least one character. -/
theorem length_stream_le (cursor : Cursor) :
    cursor.stream.tokens.length ≤ cursor.rest.length := by
  induction cursor using stream_induction with
  | ended cursor nothing =>
      rw [stream_of_end nothing]
      exact Nat.zero_le _
  | fault cursor after diagnostic more read =>
      simp [stream_of_fault more read, TokenStream.broken]
  | token cursor after token more read ih =>
      rw [stream_of_token more read]
      exact Nat.le_trans (Nat.succ_le_succ ih) (nextToken_rest_lt read)

end Cursor

end Scriptlet
