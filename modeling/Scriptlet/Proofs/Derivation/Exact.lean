import Scriptlet.Proofs.Derivation.Basic
import Scriptlet.Proofs.Reading.Statements

/-!
# Productions read derivations

On a reader that is going to see some tokens and then what ends them, a production succeeds with a
value and leaves certain tokens if and only if the value has a derivation from the tokens that
leaves these (`Exact`).  Only where the stream is broken behind the last token, a production that
would leave none may look at the break and halt there.  There is one rule for each way in which
productions are put together, and one statement for each production.
-/

namespace Scriptlet

/-- A level further in, a reader is going to see the same. -/
theorem Reader.Reads.deepen {reader : Reader} {tokens : List Token}
    {ending : Except Diagnostic Token} (reads : reader.Reads tokens ending) :
    ({ reader with
      depth := reader.depth + 1
      deepest := max reader.deepest (reader.depth + 1) } : Reader).Reads tokens ending :=
  reads.of_same rfl rfl rfl

namespace Parse

variable {α β : Type} {ending : Except Diagnostic Token} {tokens : List Token}

/-- A run that gives the value and leaves the tokens.  If none are left, it may halt at the fault
that breaks the stream. -/
inductive Gives (ending : Except Diagnostic Token) (value : α) (rest : List Token) :
    EStateM.Result Halt Reader α → Prop where
  | done {after : Reader} (left : after.Reads rest ending) :
      Gives ending value rest (.ok value after)
  | cut {after : Reader} {diagnostic : Diagnostic} (nothing : rest = [])
      (broken : ending = .error diagnostic) :
      Gives ending value rest (.error (.failed diagnostic) after)

/-- Where the input ends, a run that gives a value succeeds. -/
theorem Gives.exists_ok {final : Token} {value : α} {rest : List Token}
    {run : EStateM.Result Halt Reader α} (gives : Gives (.ok final) value rest run) :
    ∃ after, run = .ok value after ∧ after.Reads rest (.ok final) := by
  cases gives with
  | done left => exact ⟨_, rfl, left⟩
  | cut _ broken => cases broken

/-- On every reader that is going to see the tokens and the ending, the production succeeds with
just the values, and leaves just the tokens, that `reading` allows.  Of no tokens none are left. -/
structure Exact (ending : Except Diagnostic Token) (tokens : List Token) (production : Parse α)
    (reading : α → List Token → Prop) : Prop where
  sound : ∀ {reader after value}, Reader.Reads reader tokens ending →
    production reader = .ok value after →
    ∃ rest, after.Reads rest ending ∧ reading value rest
  complete : ∀ {reader value rest}, Reader.Reads reader tokens ending →
    reading value rest → Gives ending value rest (production reader)
  spent : ∀ {value rest}, tokens = [] → reading value rest → rest = []

namespace Exact

theorem congr {production : Parse α} {one other : α → List Token → Prop}
    (exact : Exact ending tokens production one)
    (same : ∀ value rest, one value rest ↔ other value rest) :
    Exact ending tokens production other := by
  have equal : one = other := by
    funext value rest
    exact propext (same value rest)
  rwa [← equal]

/-- A result needs no tokens. -/
theorem done (result : α) :
    Exact ending tokens (pure result : Parse α)
      fun value rest => value = result ∧ rest = tokens := by
  constructor
  · intro reader after value reads ran
    cases ran
    exact ⟨tokens, reads, rfl, rfl⟩
  · intro reader value rest reads given
    rcases given with ⟨rfl, rfl⟩
    exact .done reads
  · intro value rest nothing given
    exact given.2.trans nothing

/-- A failure is no result. -/
theorem failed {production : Parse α}
    (fails : ∀ reader : Reader, reader.Reads tokens ending →
      ∃ halt after, production reader = .error halt after) :
    Exact ending tokens production fun _ _ => False := by
  constructor
  · intro reader after value reads ran
    rcases fails reader reads with ⟨halt, last, failed⟩
    cases failed.symm.trans ran
  · intro reader value rest reads impossible
    exact impossible.elim
  · intro value rest nothing impossible
    exact impossible.elim

/-- One production after another. -/
theorem bind {first : Parse α} {second : α → Parse β} {one : α → List Token → Prop}
    {two : α → List Token → β → List Token → Prop} (before : Exact ending tokens first one)
    (behind : ∀ value rest, one value rest → Exact ending rest (second value) (two value rest)) :
    Exact ending tokens (first >>= second) fun value rest =>
      ∃ middle between, one middle between ∧ two middle between value rest := by
  constructor
  · intro reader after value reads ran
    have sequenced : (first >>= second) reader = EStateM.bind first second reader := rfl
    rw [sequenced, EStateM.bind] at ran
    cases step : first reader with
    | error halt last =>
        rw [step] at ran
        cases ran
    | ok middle last =>
        rw [step] at ran
        rcases before.sound reads step with ⟨between, still, derives⟩
        rcases (behind middle between derives).sound still ran with ⟨rest, left, further⟩
        exact ⟨rest, left, middle, between, derives, further⟩
  · intro reader value rest reads derives
    rcases derives with ⟨middle, between, derives, further⟩
    have later := behind middle between derives
    have gives := before.complete reads derives
    have sequenced : (first >>= second) reader = EStateM.bind first second reader := rfl
    rw [sequenced, EStateM.bind]
    revert gives
    generalize first reader = run
    intro gives
    cases gives with
    | done still => exact later.complete still further
    | cut nothing broken => exact .cut (later.spent nothing further) broken
  · intro value rest nothing derives
    rcases derives with ⟨middle, between, derives, further⟩
    exact (behind middle between derives).spent (before.spent nothing derives) further

/-- What a reader that is going to see the tokens knows about them may be used. -/
theorem knowing {production : Parse α} {reading : α → List Token → Prop}
    (spent : ∀ value rest, tokens = [] → reading value rest → rest = [])
    (exact : (∀ final, ending = .ok final → final.kind = .endOfInput) →
      (∀ token ∈ tokens, token.kind ≠ .endOfInput) → Exact ending tokens production reading) :
    Exact ending tokens production reading := by
  constructor
  · intro reader after value reads ran
    exact (exact reads.final reads.real).sound reads ran
  · intro reader value rest reads derives
    exact (exact reads.final reads.real).complete reads derives
  · intro value rest
    exact spent value rest

/-- A step that only moves the reader on. -/
theorem step {later : List Token} {production : Parse α} {reading : α → List Token → Prop}
    (spent : ∀ value rest, tokens = [] → reading value rest → rest = [])
    (runs : ∀ reader : Reader, reader.Reads tokens ending → ∃ other after,
      production reader = other after ∧ after.Reads later ending ∧
      Exact ending later other reading) :
    Exact ending tokens production reading := by
  constructor
  · intro reader after value reads ran
    rcases runs reader reads with ⟨other, last, same, still, exact⟩
    exact exact.sound still (same.symm.trans ran)
  · intro reader value rest reads derives
    rcases runs reader reads with ⟨other, last, same, still, exact⟩
    rw [same]
    exact exact.complete still derives
  · intro value rest
    exact spent value rest

/-- Look at the current token: at the end of the input, and before a token.  If there is neither,
nothing can be read. -/
theorem look {next : Token → Parse α} (reading : List Token → α → List Token → Prop)
    (spent : ∀ value rest, reading [] value rest → rest = [])
    (ended : ∀ final, ending = .ok final → final.kind = .endOfInput →
      Exact ending [] (next final) (reading []))
    (first : ∀ token rest, tokens = token :: rest → token.kind ≠ .endOfInput →
      Exact ending (token :: rest) (next token) (reading (token :: rest))) :
    Exact ending tokens (peek >>= next) (reading tokens) := by
  have spentHere : ∀ value rest, tokens = [] → reading tokens value rest → rest = [] := by
    rintro value rest rfl
    exact spent value rest
  apply knowing spentHere
  intro atEnd real
  cases tokens with
  | cons token rest =>
      refine @step _ _ _ (token :: rest) _ _ spentHere fun reader reads => ?_
      obtain ⟨after, ran, still⟩ := peek_of_current reads rfl
      exact ⟨next token, after, bind_of_ok ran, still, first token rest rfl (real token (.head _))⟩
  | nil =>
      cases ending with
      | ok final =>
          refine @step _ _ _ [] _ _ spentHere fun reader reads => ?_
          obtain ⟨after, ran, still⟩ := peek_of_current reads rfl
          exact ⟨next final, after, bind_of_ok ran, still, ended final rfl (atEnd final rfl)⟩
      | error diagnostic =>
          constructor
          · intro reader after value reads ran
            obtain ⟨last, fault⟩ := peek_of_fault reads rfl
            cases (bind_of_error fault).symm.trans ran
          · intro reader value rest reads derives
            obtain ⟨last, fault⟩ := peek_of_fault reads rfl
            rw [bind_of_error fault]
            exact .cut (spent value rest derives) rfl
          · intro value rest
            exact spentHere value rest

/-- Look at the kind of the current token. -/
theorem byKind {next : TokenKind → Parse α} (reading : List Token → α → List Token → Prop)
    (spent : ∀ value rest, reading [] value rest → rest = [])
    (ended : Exact ending [] (next .endOfInput) (reading []))
    (first : ∀ token rest, tokens = token :: rest → token.kind ≠ .endOfInput →
      Exact ending (token :: rest) (next token.kind) (reading (token :: rest))) :
    Exact ending tokens (peekKind >>= next) (reading tokens) := by
  have assoc : peekKind >>= next = peek >>= fun token => next token.kind := by
    simp [peekKind]
  rw [assoc]
  refine look reading spent (fun final _ atEnd => ?_) first
  rw [atEnd]
  exact ended

/-- Use up the token at the front. -/
theorem take {token : Token} {next : Token → Parse α} {reading : α → List Token → Prop}
    (further : Exact ending tokens (next token) reading) :
    Exact ending (token :: tokens) (advance >>= next) reading := by
  apply step
  · intro value rest nothing
    cases nothing
  · intro reader reads
    rcases advance_of_cons reads with ⟨after, ran, left⟩
    exact ⟨next token, after, bind_of_ok ran, left, further⟩

/-- The token at the front, used up, is the result. -/
theorem taken (token : Token) :
    Exact ending (token :: tokens) advance fun value rest => value = token ∧ rest = tokens := by
  constructor
  · intro reader after value reads ran
    rcases advance_of_cons reads with ⟨last, same, left⟩
    cases same.symm.trans ran
    exact ⟨tokens, left, rfl, rfl⟩
  · intro reader value rest reads given
    rcases given with ⟨rfl, rfl⟩
    rcases advance_of_cons reads with ⟨after, ran, left⟩
    rw [ran]
    exact .done left
  · intro value rest nothing
    cases nothing

/-- Ask the reader itself for what it knows. -/
theorem ask {next : Reader → Parse α} {reading : α → List Token → Prop}
    (spent : ∀ value rest, tokens = [] → reading value rest → rest = [])
    (further : ∀ reader : Reader, reader.Reads tokens ending →
      Exact ending tokens (next reader) reading) :
    Exact ending tokens (get >>= next) reading :=
  step spent fun reader reads => ⟨next reader, reader, rfl, reads, further reader reads⟩

/-- A loop has more rounds than there are tokens. -/
theorem count {next : Nat → Parse α} {reading : α → List Token → Prop}
    (further : ∀ rounds, tokens.length < rounds → Exact ending tokens (next rounds) reading) :
    Exact ending tokens (rounds >>= next) reading := by
  have assoc : rounds >>= next = get >>= fun reader => next (reader.unread + 1) := by
    simp [rounds]
  rw [assoc]
  apply ask
  · intro value rest
    exact (further _ (Nat.lt_succ_self _)).spent
  · intro reader reads
    exact further _ (Nat.lt_succ_of_le reads.length_le_unread)

/-- Opening a level changes nothing that is read. -/
theorem opened {production : Parse α} {reading : α → List Token → Prop}
    (exact : Exact ending tokens production reading) :
    Exact ending tokens (Parse.opened production) reading := by
  constructor
  · intro reader after value reads ran
    have deeper := reads.deepen
    simp only [Parse.opened] at ran
    split at ran
    next result last inside =>
      rcases exact.sound deeper inside with ⟨rest, left, derives⟩
      cases ran
      exact ⟨rest, left.of_same rfl rfl rfl, derives⟩
    next => cases ran
  · intro reader value rest reads derives
    have gives := exact.complete reads.deepen derives
    simp only [Parse.opened]
    revert gives
    generalize production _ = run
    intro gives
    cases gives with
    | done left => exact .done (left.of_same rfl rfl rfl)
    | cut nothing broken => exact .cut nothing broken
  · exact exact.spent

/-- At the limit nothing is read. -/
theorem tooDeep (limit : Nat) :
    Exact ending tokens (Parse.tooDeep limit : Parse α) fun _ _ => False :=
  look (fun _ _ _ => False) (fun _ _ impossible => impossible.elim)
    (fun _ _ _ => failed fun reader _ => ⟨_, reader, rfl⟩)
    fun _ _ _ _ => failed fun reader _ => ⟨_, reader, rfl⟩

/-! ## Expected tokens -/

/-- Expecting a token is taking one of the kinds.  The end of the input can never be taken. -/
theorem expectedOneOf {kinds : List TokenKind} (real : .endOfInput ∉ kinds) :
    Exact ending tokens (expectOneOf kinds)
      fun token rest => tokens = token :: rest ∧ token.kind ∈ kinds := by
  apply look fun tokens token rest => tokens = token :: rest ∧ token.kind ∈ kinds
  · rintro token rest ⟨impossible, _⟩
    cases impossible
  · intro final _ atEnd
    have outside : final.kind ∉ kinds := by
      rw [atEnd]
      exact real
    rw [if_neg outside]
    refine (failed fun reader _ => ⟨_, reader, rfl⟩).congr ?_
    intro token rest
    simp
  · intro first rest _ _
    by_cases member : first.kind ∈ kinds
    · rw [if_pos member]
      refine (taken first).congr ?_
      intro token left
      constructor
      · rintro ⟨rfl, rfl⟩
        exact ⟨rfl, member⟩
      · rintro ⟨same, _⟩
        cases same
        exact ⟨rfl, rfl⟩
    · rw [if_neg member]
      refine (failed fun reader _ => ⟨_, reader, rfl⟩).congr ?_
      intro token left
      constructor
      · exact False.elim
      · rintro ⟨same, inside⟩
        cases same
        exact member inside

/-- Expecting a token is taking one of the kind. -/
theorem expected (kind : TokenKind) (real : .endOfInput ≠ kind) :
    Exact ending tokens (expect kind)
      fun token rest => tokens = token :: rest ∧ token.kind = kind := by
  refine (expectedOneOf (by simpa using real)).congr ?_
  intro token rest
  rw [List.mem_singleton]

end Exact

end Parse

end Scriptlet
