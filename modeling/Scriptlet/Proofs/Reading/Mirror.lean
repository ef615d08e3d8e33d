import Scriptlet.Proofs.Reading.Descent
import Scriptlet.Proofs.Reading.Stream
import Scriptlet.Reader.Program

/-!
# Productions as functions of the tokens to come

`Mirrors` relates a production, which runs on a reader, to an outcome over the tokens that the
reader is going to see.  The production gives the value of the outcome and leaves the tokens that
the outcome leaves, or it fails as the outcome does.  The limit on nesting is the only excuse: a
production may always fail because it nests too deeply.

There is one rule for each way in which productions are put together.
-/

namespace Scriptlet

open Descent

namespace Parse

variable {α β : Type} {limit : Nat} {ending : Except Diagnostic Token} {tokens : List Token}

/-- The run ended because productions nest too deeply. -/
def TooDeep (limit : Nat) (run : EStateM.Result Halt Reader α) : Prop :=
  ∃ position after, run = .error (.failed ⟨.nestingTooDeep limit, position⟩) after

/-- The run gave the value expected, with the tokens left that are expected to be left, or failed
with the diagnostic expected. -/
def Agrees (ending : Except Diagnostic Token) (run : EStateM.Result Halt Reader α)
    (expected : Except Diagnostic (α × List Token)) : Prop :=
  match expected with
  | .ok (value, rest) => ∃ after, run = .ok value after ∧ after.Reads rest ending
  | .error diagnostic => ∃ after, run = .error (.failed diagnostic) after

/-- `Mirrors limit ending tokens production expected` says that on every reader that is going to see
`tokens`, the production does what `expected` says or fails at the limit. -/
def Mirrors (limit : Nat) (ending : Except Diagnostic Token) (tokens : List Token)
    (production : Parse α) (expected : Except Diagnostic (α × List Token)) : Prop :=
  ∀ reader : Reader, reader.Reads tokens ending →
    TooDeep limit (production reader) ∨ Agrees ending (production reader) expected

namespace Mirrors

/-- A result needs no tokens. -/
theorem done (value : α) :
    Mirrors limit ending tokens (pure value : Parse α) (.ok (value, tokens)) := by
  intro reader reads
  exact .inr ⟨reader, rfl, reads⟩

/-- A failure is the failure expected. -/
theorem failed (cause : Cause) (position : Position) :
    Mirrors limit ending tokens (fail cause position : Parse α) (.error ⟨cause, position⟩) := by
  intro reader reads
  exact .inr ⟨reader, rfl⟩

/-- One production after another. -/
theorem bind {first : Parse α} {second : α → Parse β}
    {expected : Except Diagnostic (α × List Token)}
    (further : α → List Token → Except Diagnostic (β × List Token))
    (one : Mirrors limit ending tokens first expected)
    (two : ∀ value rest, expected = .ok (value, rest) →
      Mirrors limit ending rest (second value) (further value rest)) :
    Mirrors limit ending tokens (first >>= second)
      (expected >>= fun outcome => further outcome.1 outcome.2) := by
  intro reader reads
  have sequenced : (first >>= second) reader = EStateM.bind first second reader := rfl
  rw [sequenced, EStateM.bind]
  cases one reader reads with
  | inl deep =>
      rcases deep with ⟨position, after, ran⟩
      rw [ran]
      exact .inl ⟨position, after, rfl⟩
  | inr agrees =>
      cases expected with
      | error diagnostic =>
          rcases agrees with ⟨after, ran⟩
          rw [ran]
          exact .inr ⟨after, rfl⟩
      | ok outcome =>
          rcases agrees with ⟨after, ran, left⟩
          rw [ran]
          exact two outcome.1 outcome.2 rfl after left

/-- One production after another, where the outcomes count what they leave. -/
theorem andThen {bound other : Nat} {first : Parse α} {second : α → Parse β}
    {parsed : Parsed α bound}
    {next : α → (rest : List Token) → rest.length < bound → Parsed β other}
    (one : Mirrors limit ending tokens first parsed.result)
    (two : ∀ value rest fewer,
      Mirrors limit ending rest (second value) (next value rest fewer).result) :
    Mirrors limit ending tokens (first >>= second) (parsed.andThen next).result := by
  cases parsed with
  | stopped diagnostic =>
      apply bind (fun _ _ => .error diagnostic) one
      intro value rest impossible
      cases impossible
  | done value rest fewer =>
      apply bind (fun _ _ => (next value rest fewer).result) one
      intro other after same
      cases same
      exact two value rest fewer

/-- Look at the current token, which may turn out to be a fault. -/
theorem look {next : Token → Parse α} {expected : Except Diagnostic (α × List Token)}
    (seen : ∀ token, current ending tokens = .ok token →
      Mirrors limit ending tokens (next token) expected)
    (unseen : ∀ diagnostic, current ending tokens = .error diagnostic →
      expected = .error diagnostic) :
    Mirrors limit ending tokens (peek >>= next) expected := by
  intro reader reads
  have sequenced : (peek >>= next) reader = EStateM.bind peek next reader := rfl
  rw [sequenced, EStateM.bind]
  cases looked : current ending tokens with
  | ok token =>
      rcases peek_of_current reads looked with ⟨after, ran, still⟩
      rw [ran]
      exact seen token looked after still
  | error diagnostic =>
      rcases peek_of_fault reads looked with ⟨after, ran⟩
      rw [ran, unseen diagnostic looked]
      exact .inr ⟨after, rfl⟩

/-- Look at the kind of the current token. -/
theorem lookKind {next : TokenKind → Parse α} {expected : Except Diagnostic (α × List Token)}
    (seen : ∀ token, current ending tokens = .ok token →
      Mirrors limit ending tokens (next token.kind) expected)
    (unseen : ∀ diagnostic, current ending tokens = .error diagnostic →
      expected = .error diagnostic) :
    Mirrors limit ending tokens (peekKind >>= next) expected := by
  have assoc : peekKind >>= next = peek >>= fun token => next token.kind := by
    simp [peekKind]
  rw [assoc]
  exact look seen unseen

/-- Use up the token at the front. -/
theorem take {token : Token} {next : Token → Parse α}
    {expected : Except Diagnostic (α × List Token)}
    (further : Mirrors limit ending tokens (next token) expected) :
    Mirrors limit ending (token :: tokens) (advance >>= next) expected := by
  intro reader reads
  have sequenced : (advance >>= next) reader = EStateM.bind advance next reader := rfl
  rcases advance_of_cons reads with ⟨after, ran, left⟩
  rw [sequenced, EStateM.bind, ran]
  exact further after left

/-- Ask the reader itself for what it knows. -/
theorem ask {next : Reader → Parse α} {expected : Except Diagnostic (α × List Token)}
    (further : ∀ reader : Reader, reader.Reads tokens ending →
      Mirrors limit ending tokens (next reader) expected) :
    Mirrors limit ending tokens (get >>= next) expected := by
  intro reader reads
  exact further reader reads reader reads

/-- A loop has more rounds than there are tokens. -/
theorem count {next : Nat → Parse α} {expected : Except Diagnostic (α × List Token)}
    (further : ∀ rounds, tokens.length < rounds →
      Mirrors limit ending tokens (next rounds) expected) :
    Mirrors limit ending tokens (rounds >>= next) expected := by
  have assoc : rounds >>= next = get >>= fun reader => next (reader.unread + 1) := by
    simp [rounds]
  rw [assoc]
  apply ask
  intro reader reads
  exact further _ (Nat.lt_succ_of_le reads.length_le_unread)

/-- Only readers that are going to see these tokens matter. -/
theorem onReaders {production : Parse α} {expected : Except Diagnostic (α × List Token)}
    (mirrors : ∀ reader : Reader, reader.Reads tokens ending →
      Mirrors limit ending tokens production expected) :
    Mirrors limit ending tokens production expected := by
  intro reader reads
  exact mirrors reader reads reader reads

/-- Look at the kind of the current token and go by it: at the end of the input, at a fault, and
before a token. -/
theorem byKind {next : TokenKind → Parse α}
    (expected : List Token → Except Diagnostic (α × List Token))
    (ended : ∀ final, current ending [] = .ok final →
      Mirrors limit ending [] (next .endOfInput) (expected []))
    (fault : ∀ diagnostic, current ending [] = .error diagnostic →
      expected [] = .error diagnostic)
    (first : ∀ token rest, tokens = token :: rest → token.kind ≠ .endOfInput →
      Mirrors limit ending (token :: rest) (next token.kind) (expected (token :: rest))) :
    Mirrors limit ending tokens (peekKind >>= next) (expected tokens) := by
  apply onReaders
  intro reader reads
  apply lookKind
  · intro token seen
    cases tokens with
    | nil =>
        rw [reads.final token seen]
        exact ended token seen
    | cons head rest =>
        cases seen
        exact first token rest rfl (reads.real token (.head rest))
  · intro diagnostic unseen
    cases tokens with
    | nil => exact fault diagnostic unseen
    | cons head rest => cases unseen

/-- The token at the front, used up, is the result. -/
theorem taken (token : Token) :
    Mirrors limit ending (token :: tokens) advance (.ok (token, tokens)) := by
  intro reader reads
  exact .inr (advance_of_cons reads)

/-- Expecting a token is taking one of the kinds.  The end of the input can never be taken. -/
theorem expected {kinds : List TokenKind} (real : .endOfInput ∉ kinds) :
    Mirrors limit ending tokens (expectOneOf kinds) (takeOneOf ending kinds tokens).result := by
  apply onReaders
  intro reader reads
  apply look
  · intro token seen
    cases tokens with
    | nil =>
        change ending = .ok token at seen
        have outside : token.kind ∉ kinds := by
          rw [reads.final token seen]
          exact real
        rw [if_neg outside]
        simp only [takeOneOf, blame, current, seen]
        exact failed _ _
    | cons first rest =>
        obtain rfl : first = token := Except.ok.inj seen
        by_cases member : first.kind ∈ kinds
        · rw [if_pos member, takeOneOf, if_pos member]
          exact taken first
        · rw [if_neg member, takeOneOf, if_neg member]
          exact failed _ _
  · intro diagnostic unseen
    cases tokens with
    | nil =>
        simp only [takeOneOf, blame, unseen]
        rfl
    | cons first rest => cases unseen

/-- Expecting a token of the kinds that stands at the front. -/
theorem expectedFirst {kinds : List TokenKind} {token : Token} {next : Token → Parse α}
    {expected : Except Diagnostic (α × List Token)} (member : token.kind ∈ kinds)
    (further : Mirrors limit ending tokens (next token) expected) :
    Mirrors limit ending (token :: tokens) (expectOneOf kinds >>= next) expected := by
  simp only [expectOneOf, bind_assoc]
  apply look
  · intro first seen
    cases seen
    rw [if_pos member]
    exact take further
  · intro diagnostic unseen
    cases unseen

/-- At the limit nothing is read, but a fault still shows. -/
theorem tooDeep {expected : Except Diagnostic (α × List Token)}
    (unseen : ∀ diagnostic, current ending tokens = .error diagnostic →
      expected = .error diagnostic) :
    Mirrors limit ending tokens (Parse.tooDeep limit) expected := by
  refine look ?_ unseen
  intro token seen reader reads
  exact .inl ⟨token.span.start, reader, rfl⟩

/-- Opening a level changes nothing that is read. -/
theorem opened {production : Parse α} {expected : Except Diagnostic (α × List Token)}
    (mirrors : Mirrors limit ending tokens production expected) :
    Mirrors limit ending tokens (Parse.opened production) expected := by
  intro reader reads
  obtain ⟨deeper, same⟩ : ∃ deeper : Reader, deeper = { reader with
      depth := reader.depth + 1, deepest := max reader.deepest (reader.depth + 1) } := ⟨_, rfl⟩
  have deeperReads : deeper.Reads tokens ending := by
    rw [same]
    exact reads.of_same rfl rfl rfl
  simp only [Parse.opened, ← same]
  cases mirrors deeper deeperReads with
  | inl deep =>
      rcases deep with ⟨position, after, ran⟩
      rw [ran]
      exact .inl ⟨position, _, rfl⟩
  | inr agrees =>
      cases expected with
      | error diagnostic =>
          rcases agrees with ⟨after, ran⟩
          rw [ran]
          exact .inr ⟨_, rfl⟩
      | ok outcome =>
          rcases agrees with ⟨after, ran, left⟩
          rw [ran]
          exact .inr ⟨_, rfl, left.of_same rfl rfl rfl⟩

end Mirrors

end Parse

end Scriptlet
