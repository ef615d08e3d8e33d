import Scriptlet.Proofs.Reading.Descent
import Scriptlet.Proofs.Reading.Stream
import Scriptlet.Reader.Session

/-!
# Looking ahead

A reader that only reads tokens goes through one infinite sequence: the tokens of its source, and
then the end of the input for ever (`upcoming`).  Whatever is asked of it, and in whatever order,
each answer is about the first token of the sequence that has not been used up.  So looking ahead
loses no token and uses none twice (`performAll_followsTokens`).
-/

namespace Scriptlet

/-- The tokens of a source by number.  Behind the last of them stands the end of the input, as often
as it is asked for. -/
def upcoming (file : Option String) (tokens : List Token) (index : Nat) : Token :=
  tokens.getD index (.closing file tokens)

theorem current_drop (file : Option String) (tokens : List Token) (count : Nat) :
    current (.ok (.closing file tokens)) (tokens.drop count) =
      .ok (upcoming file tokens count) := by
  rw [upcoming, List.getD_eq_getElem?_getD]
  cases left : tokens.drop count with
  | nil =>
      rw [List.getElem?_eq_none (List.drop_eq_nil_iff.mp left)]
      rfl
  | cons first rest =>
      rw [← Nat.add_zero count, ← List.getElem?_drop, left]
      rfl

/-- Using up a token gives the token that looking shows. -/
theorem Parse.advance_of_peek {reader after : Reader} {token : Token}
    (looked : peek reader = .ok token after) :
    advance reader = .ok token { after with lookahead := none } := by
  rw [peek] at looked
  rw [advance]
  cases seen : reader.lookahead with
  | some held =>
      rw [seen] at looked
      cases looked
      rfl
  | none =>
      simp only [seen] at looked ⊢
      split at looked
      next shown cursor pulled =>
        cases looked
        rw [← seen]
      next => cases looked

namespace Reader

variable {source : String} {file : Option String} {tokens : List Token} {count : Nat}
  {reader : Reader} {request : Request} {requests : List Request} {reply : Reply} {next : Token}

/-! ## One request -/

/-- The request reads tokens and does nothing else. -/
def Request.readsTokens : Request → Bool
  | .peek | .peekKind | .hasTokens | .advance | .expect _ | .expectOneOf _ => true
  | _ => false

/-- The replies to requests that read tokens, when `next` is the first token that has not been used
up. -/
inductive Answers (next : Token) : Request → Reply → Prop where
  | peek : Answers next .peek (.token next)
  | peekKind : Answers next .peekKind (.kind next.kind)
  | hasTokens : Answers next .hasTokens (.flag (next.kind ≠ .endOfInput))
  | advance : Answers next .advance (.token next)
  | expect {kind : TokenKind} : next.kind = kind → Answers next (.expect kind) (.token next)
  | refuse {kind : TokenKind} : next.kind ≠ kind →
      Answers next (.expect kind) (.halted (.failed (Descent.unexpected [kind] next)))
  | expectOneOf {kinds : List TokenKind} : next.kind ∈ kinds →
      Answers next (.expectOneOf kinds) (.token next)
  | refuseOneOf {kinds : List TokenKind} : next.kind ∉ kinds →
      Answers next (.expectOneOf kinds) (.halted (.failed (Descent.unexpected kinds next)))

/-- The token that is used up by a request with this reply, if one is. -/
def usedBy : Request × Reply → List Token
  | (.advance, .token token) => [token]
  | (.expect _, .token token) => [token]
  | (.expectOneOf _, .token token) => [token]
  | _ => []

theorem Answers.usedBy_eq (answers : Answers next request reply) :
    usedBy (request, reply) = [] ∨ usedBy (request, reply) = [next] := by
  cases answers <;> simp [usedBy]

namespace Reaches

variable (lexed : tokenize source file = .ok tokens)
include lexed

theorem peek_upcoming (reached : Reaches source file count reader) :
    ∃ after, Parse.peek reader = .ok (upcoming file tokens count) after ∧
      Reaches source file count after := by
  rcases Parse.peek_of_current (reached.reads lexed) (current_drop file tokens count) with
    ⟨after, looked, _⟩
  exact ⟨after, looked, reached.peek looked⟩

theorem advance_upcoming (reached : Reaches source file count reader) :
    ∃ after, Parse.advance reader = .ok (upcoming file tokens count) after ∧
      Reaches source file (count + 1) after := by
  rcases reached.peek_upcoming lexed with ⟨after, looked, _⟩
  have used := Parse.advance_of_peek looked
  exact ⟨_, used, reached.advance used⟩

theorem expect_upcoming (reached : Reaches source file count reader) {kinds : List TokenKind}
    (fits : (upcoming file tokens count).kind ∈ kinds) :
    ∃ after, Parse.expectOneOf kinds reader = .ok (upcoming file tokens count) after ∧
      Reaches source file (count + 1) after := by
  rcases reached.peek_upcoming lexed with ⟨seen, looked, still⟩
  rcases still.advance_upcoming lexed with ⟨after, used, further⟩
  refine ⟨after, ?_, further⟩
  rw [Parse.expectOneOf, Parse.bind_of_ok looked, if_pos fits, used]

/-- A token that is not expected stays where it is. -/
theorem refuse_upcoming (reached : Reaches source file count reader) {kinds : List TokenKind}
    (misfits : (upcoming file tokens count).kind ∉ kinds) :
    ∃ after, Parse.expectOneOf kinds reader =
        .error (.failed (Descent.unexpected kinds (upcoming file tokens count))) after ∧
      Reaches source file count after := by
  rcases reached.peek_upcoming lexed with ⟨seen, looked, still⟩
  refine ⟨seen, ?_, still⟩
  rw [Parse.expectOneOf, Parse.bind_of_ok looked, if_neg misfits]
  rfl

/-- One request gets its answer from the first token that has not been used up, and moves on by what
it uses up itself. -/
theorem perform (reached : Reaches source file count reader)
    (reads : request.readsTokens = true) :
    Answers (upcoming file tokens count) request (reader.perform request).1 ∧
      Reaches source file (count + (usedBy (request, (reader.perform request).1)).length)
        (reader.perform request).2 := by
  cases request with
  | peek =>
      rcases reached.peek_upcoming lexed with ⟨after, looked, still⟩
      simp only [Reader.perform, ask, looked]
      exact ⟨.peek, still⟩
  | peekKind =>
      rcases reached.peek_upcoming lexed with ⟨after, looked, still⟩
      simp only [Reader.perform, ask, Parse.peekKind, Parse.bind_of_ok looked]
      exact ⟨.peekKind, still⟩
  | hasTokens =>
      rcases reached.peek_upcoming lexed with ⟨after, looked, still⟩
      simp only [Reader.perform, ask, Parse.hasTokens, Parse.peekKind, bind_assoc,
        Parse.bind_of_ok looked]
      exact ⟨.hasTokens, still⟩
  | advance =>
      rcases reached.advance_upcoming lexed with ⟨after, used, further⟩
      simp only [Reader.perform, ask, used]
      exact ⟨.advance, further⟩
  | expect kind =>
      by_cases fits : (upcoming file tokens count).kind ∈ [kind]
      · rcases reached.expect_upcoming lexed fits with ⟨after, used, further⟩
        simp only [Reader.perform, ask, Parse.expect, used]
        exact ⟨.expect (List.mem_singleton.mp fits), further⟩
      · rcases reached.refuse_upcoming lexed fits with ⟨after, refused, still⟩
        simp only [Reader.perform, ask, Parse.expect, refused]
        exact ⟨.refuse (by simpa using fits), still⟩
  | expectOneOf kinds =>
      by_cases fits : (upcoming file tokens count).kind ∈ kinds
      · rcases reached.expect_upcoming lexed fits with ⟨after, used, further⟩
        simp only [Reader.perform, ask, used]
        exact ⟨.expectOneOf fits, further⟩
      · rcases reached.refuse_upcoming lexed fits with ⟨after, refused, still⟩
        simp only [Reader.perform, ask, refused]
        exact ⟨.refuseOneOf fits, still⟩
  | _ => cases reads

end Reaches

/-! ## Whole sessions -/

/-- The tokens that a session has used up so far. -/
def usedUp (steps : List (Request × Reply)) : List Token := steps.flatMap usedBy

/-- The session answers every request and goes through the sequence token by token. -/
structure FollowsTokens (sequence : Nat → Token) (requests : List Request) (replies : List Reply) :
    Prop where
  answersAll : replies.length = requests.length
  inOrder : ∃ count, usedUp (requests.zip replies) = (List.range count).map sequence
  answers : ∀ before request reply later,
    requests.zip replies = before ++ (request, reply) :: later →
    Answers (sequence (usedUp before).length) request reply

/-- A session that begins in the middle of a source follows the tokens from there. -/
theorem Reaches.performAll (lexed : tokenize source file = .ok tokens)
    (reached : Reaches source file count reader)
    (reads : ∀ request ∈ requests, request.readsTokens = true) :
    FollowsTokens (fun index => upcoming file tokens (count + index)) requests
      (reader.performAll requests).1 := by
  induction requests generalizing reader count with
  | nil =>
      refine ⟨rfl, ⟨0, rfl⟩, ?_⟩
      intro before request reply later split
      cases before <;> cases split
  | cons request requests ih =>
      rcases List.forall_mem_cons.mp reads with ⟨first, others⟩
      rcases reached.perform lexed first with ⟨answer, onward⟩
      rcases ih onward others with ⟨answersAll, ⟨further, inOrder⟩, answers⟩
      rw [performAll]
      refine ⟨congrArg Nat.succ answersAll, ?_, ?_⟩
      -- What the first request uses up comes in front of what the others use up.
      · simp only [usedUp, List.zip_cons_cons, List.flatMap_cons] at inOrder ⊢
        rw [inOrder]
        obtain unused | used := answer.usedBy_eq
        · exact ⟨further, by simp [unused]⟩
        · refine ⟨further + 1, ?_⟩
          simp [used, List.range_succ_eq_map, Function.comp_def, Nat.add_assoc, Nat.add_comm 1]
      -- An answer is about the first request, or it is one that the others get.
      · intro before asked told later split
        cases before with
        | nil =>
            cases List.cons.inj split |>.1
            exact answer
        | cons earlier before =>
            obtain ⟨rfl, rest⟩ := List.cons.inj split
            have told := answers before asked told later rest
            simpa [usedUp, Nat.add_assoc] using told

end Reader

/-- Looking ahead never loses a token and never gives one twice. -/
theorem performAll_followsTokens {source : String} {file : Option String} {tokens : List Token}
    {requests : List Reader.Request} (lexed : tokenize source file = .ok tokens)
    (reads : ∀ request ∈ requests, request.readsTokens = true) :
    Reader.FollowsTokens (upcoming file tokens) requests
      ((Reader.ofSource source file).performAll requests).1 := by
  have follows := Reader.Reaches.performAll lexed (.start 0 0) reads
  simp only [Nat.zero_add] at follows
  exact follows

/-- Looks, expectations that fail and some that are met, and reading on behind the end. -/
theorem performAll_followsTokens_behind_end :
    ∃ tokens requests, tokenize "$x = 1;" none = .ok tokens ∧ tokens.length = 4 ∧
      requests = [.peek, .expect .semicolon, .advance, .hasTokens, .expectOneOf [],
        .expect .assign, .advance, .peekKind, .advance, .advance, .peek, .expect .endOfInput] ∧
      (Reader.usedUp
        (requests.zip ((Reader.ofSource "$x = 1;" none).performAll requests).1)).length = 6 ∧
      Reader.FollowsTokens (upcoming none tokens) requests
        ((Reader.ofSource "$x = 1;" none).performAll requests).1 := by
  have count : (tokenize "$x = 1;" none).toOption.map List.length = some 4 := by
    decide +kernel
  cases lexed : tokenize "$x = 1;" none with
  | error diagnostic =>
      rw [lexed] at count
      cases count
  | ok tokens =>
      rw [lexed] at count
      refine ⟨tokens, _, rfl, Option.some.inj count, rfl, by decide +kernel, ?_⟩
      exact performAll_followsTokens lexed (by decide)

end Scriptlet
