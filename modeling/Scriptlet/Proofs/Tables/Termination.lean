import Scriptlet.Proofs.Lexing.Cover
import Scriptlet.Proofs.Tables.Yield

/-!
# Termination under any tables

Using up the end of the input succeeds and uses up nothing, so it is not the shape of a loop that
makes it end.  What makes it end is that every statement and every expression takes a token of the
source (`Productions.Advancing`): an operand begins with a token that has a rule, which the end of
the input has not, and everything else begins with a token of a kind that is asked for.

A loop is followed round by round (`Round`): a round either is the last one, or uses up a token of
the source and hands over to the next.  As there are no more tokens than characters, the loop ends
before the rounds run out (`EndsWithin`), and more rounds would not change the result.
-/

namespace Scriptlet

namespace Parse

/-! ## Rounds -/

/-- A round of a loop, which is to leave `rounds` for those after it.  It ends the loop, whatever
`rounds` is, or it uses tokens up and goes on with the next round from there. -/
inductive Round {σ α : Type} (loop : σ → Nat → Parse α)
    (again : List Token → σ → Reader → Prop) (body : Nat → Parse α) (reader : Reader) : Prop where
  | stops {result : EStateM.Result Halt Reader α} (ends : ∀ rounds, body rounds reader = result)
      (halts : Meets False (fun _ _ _ => True) reader result)
  | goesOn {used : List Token} {next : σ} {after : Reader} {finish : α → α}
      (uses : reader.Uses used after)
      (follows : ∀ rounds, body rounds reader = (do return finish (← loop next rounds)) after)
      (later : again used next after)

/-- The loop ends after at most `count` rounds that go on, each of which takes a token of the
source. -/
def EndsWithin {σ α : Type} (loop : σ → Nat → Parse α) : Nat → σ → Reader → Prop
  | 0, state, reader =>
      Round loop (fun _ _ _ => False) (fun rounds => loop state (rounds + 1)) reader
  | count + 1, state, reader =>
      Round loop (fun used next after => TakesToken used ∧ EndsWithin loop count next after)
        (fun rounds => loop state (rounds + 1)) reader

variable {σ α β : Type} {loop : σ → Nat → Parse α} {again : List Token → σ → Reader → Prop}
  {promised : β → List Token → Option Token → Prop} {reader after : Reader} {used : List Token}

/-- What comes out behind tokens that were used up. -/
theorem Meets.behind {result : EStateM.Result Halt Reader α} (uses : reader.Uses used after)
    (halts : Meets False (fun _ _ _ => True) after result) :
    Meets False (fun _ _ _ => True) reader result := by
  cases result with
  | ok value last =>
      obtain ⟨more, onward, _⟩ := halts
      exact ⟨used ++ more, uses.trans onward, trivial⟩
  | error halt last => exact halts

namespace Round

theorem done {value : α} (honest : reader.EndsTrue) :
    Round loop again (fun _ => pure value) reader :=
  .stops (fun _ => rfl) (.done honest trivial)

/-- A production in front of the rest of a round. -/
theorem bind {first : Parse β} {second : β → Nat → Parse α}
    (one : Meets False promised reader (first reader))
    (two : ∀ value used after, reader.Uses used after → promised value used after.lookahead →
      Round loop (fun more => again (used ++ more)) (second value) after) :
    Round loop again (fun rounds => first >>= fun value => second value rounds) reader := by
  cases ran : first reader with
  | error halt after =>
      rw [ran] at one
      exact .stops (fun _ => bind_of_error ran) one
  | ok value after =>
      rw [ran] at one
      obtain ⟨used, uses, promise⟩ := one
      have same : ∀ rounds, (first >>= fun value => second value rounds) reader =
          second value rounds after := fun _ => bind_of_ok ran
      cases two value used after uses promise with
      | stops ends halts =>
          exact .stops (fun rounds => (same rounds).trans (ends rounds)) (halts.behind uses)
      | goesOn onward follows later =>
          exact .goesOn (uses.trans onward) (fun rounds => (same rounds).trans (follows rounds))
            later

/-- The rest of the loop. -/
theorem next (state : σ) {finish : α → α} {body : Nat → Parse α} (honest : reader.EndsTrue)
    (follows : ∀ rounds, body rounds = do return finish (← loop state rounds))
    (later : again [] state reader) : Round loop again body reader :=
  .goesOn (.refl honest) (fun rounds => congrFun (follows rounds) reader) later

theorem mono {weaker : List Token → σ → Reader → Prop} {body : Nat → Parse α}
    (round : Round loop again body reader)
    (implies : ∀ used next after, reader.Uses used after → again used next after →
      weaker used next after) : Round loop weaker body reader := by
  cases round with
  | stops ends halts => exact .stops ends halts
  | goesOn uses follows later => exact .goesOn uses follows (implies _ _ _ uses later)

end Round

/-- If every round that goes on takes a token of the source, there are no more of these than
tokens. -/
theorem endsWithin_of_rounds {fits : Reader → Prop}
    (kept : ∀ {reader used after}, fits reader → reader.Uses used after → fits after)
    (rounds : ∀ {state reader}, fits reader →
      Round loop (fun used _ _ => TakesToken used) (fun rounds => loop state (rounds + 1)) reader)
    {count : Nat} {state : σ} (here : fits reader) (enough : reader.stream.tokens.length ≤ count) :
    EndsWithin loop count state reader := by
  induction count generalizing state reader with
  | zero =>
      apply (rounds here).mono
      intro used next after uses takes
      have fewer := uses.yields.length_lt takes
      omega
  | succ count ih =>
      apply (rounds here).mono
      intro used next after uses takes
      have fewer := uses.yields.length_lt takes
      exact ⟨takes, ih (kept here uses) (by omega)⟩

/-- A loop with more rounds than it goes on for does not run out of them, and how many more there
are does not matter. -/
theorem EndsWithin.run {count rounds : Nat} {state : σ}
    (within : EndsWithin loop count state reader) (enough : count < rounds) :
    Meets False (fun _ _ _ => True) reader (loop state rounds reader) ∧
      loop state rounds reader = loop state (count + 1) reader := by
  induction count generalizing rounds state reader with
  | zero =>
      obtain ⟨more, rfl⟩ := Nat.exists_eq_add_of_lt enough
      cases within with
      | stops ends halts =>
          rw [ends, ends]
          exact ⟨halts, rfl⟩
      | goesOn _ _ later => exact later.elim
  | succ count ih =>
      obtain ⟨more, rfl⟩ := Nat.exists_eq_add_of_lt enough
      cases within with
      | stops ends halts =>
          rw [ends, ends]
          exact ⟨halts, rfl⟩
      | goesOn uses follows later =>
          have fewer : count < count + 1 + more := by omega
          obtain ⟨halts, same⟩ := ih later.2 fewer
          rw [follows, follows]
          refine ⟨Meets.behind uses (halts.bind ?_), bind_of_same same⟩
          intro value used last onward _
          exact .done onward.honest trivial

end Parse

/-! ## Productions -/

/-- The reader shows the end of the input only where it is, and has no rule for an operand that
begins with it. -/
structure Reader.Grounded (reader : Reader) : Prop where
  honest : reader.EndsTrue
  closed : reader.grammar.operands .endOfInput = none

theorem Reader.Grounded.uses {reader after : Reader} {used : List Token}
    (grounded : reader.Grounded) (uses : reader.Uses used after) : after.Grounded where
  honest := uses.honest
  closed := uses.grammar ▸ grounded.closed

/-- What comes out used up a token of the source. -/
def Advances {α : Type} (_ : α) (used : List Token) (_ : Option Token) : Prop := TakesToken used

namespace Parse

section Lockstep

variable {α : Type} {reader : Reader} {readers : Unit → Reader}

/-- A reader that is grounded.  What is left of its stream is what is left to read. -/
def grounded : Lockstep Unit where
  toLikeness := .same Unit
  admits
    | .behind count, readers => (readers ()).Grounded ∧ (readers ()).stream.tokens.length < count
    | .before count, readers => (readers ()).Grounded ∧
        ∃ token, (readers ()).lookahead = some token ∧ token.kind ≠ .endOfInput ∧
          (readers ()).stream.tokens.length ≤ count
  -- That a reader has come to itself has to hold of every reader, honest or not.
  moved readers afters := (readers ()).EndsTrue → ∃ used, (readers ()).Uses used (afters ())
  halted _ halts _ := halts () ≠ .endless
  member := ()
  real kind := kind ≠ .endOfInput
  known grammar := grammar.operands .endOfInput = none
  enough count rounds := count ≤ rounds ()

/-- What a single run meets, said of it as a family. -/
theorem Meets.runs {promised : α → List Token → Option Token → Prop}
    {run : EStateM.Result Halt Reader α} (meets : Meets False promised (readers ()) run) :
    grounded.Runs readers
      (fun values afters => ∃ used, (readers ()).Uses used (afters ()) ∧
        promised (values ()) used (afters ()).lookahead) fun _ => run := by
  cases run with
  | ok value after =>
      obtain ⟨used, uses, promise⟩ := meets
      exact .done (fun _ => rfl) (fun _ => ⟨used, uses⟩) ⟨used, uses, promise⟩
  | error halt after => exact .halt (fun _ => rfl) meets

/-- Using up a token, whatever it is, leaves no more to read. -/
theorem holds_advance {count : Nat} :
    grounded.Holds (.behind count) count Uniform fun _ => advance := by
  rintro readers ⟨here, fewer⟩
  apply (Meets.advance here.honest).runs.mono
  rintro shown afters ⟨used, uses, _⟩
  exact ⟨⟨here.uses uses, Nat.lt_of_le_of_lt uses.yields.length_le fewer⟩, shown (), rfl⟩

theorem grounded_lawful : grounded.Lawful where
  genuine real := real
  ruled := by
    rintro grammar kind rule closed ruled rfl
    cases closed.symm.trans ruled
  spent enough within := Nat.le_trans within (Nat.sub_le_of_le_add enough)
  stay _ honest := ⟨[], .refl honest⟩
  onward first second honest := by
    obtain ⟨used, uses⟩ := first honest
    obtain ⟨more, onward⟩ := second uses.honest
    exact ⟨used ++ more, uses.trans onward⟩
  halting _ halts := halts
  widens stands within := ⟨stands.1, Nat.lt_of_lt_of_le stands.2 within⟩
  relaxes := by
    rintro count readers ⟨grounded, token, seen, real, within⟩
    have some : 0 < (readers ()).stream.tokens.length := by
      simp [Reader.stream, seen, real, TokenStream.push]
    exact ⟨grounded, by omega⟩
  blames _ _ _ := nofun
  exhausts := by
    intro count readers rounds _ stands enough none
    have fewer : _ < count := stands.2
    have bounded : count ≤ rounds () := enough
    have nothing : rounds () = 0 := none
    omega
  peeked := by
    rintro count readers ⟨grounded, fewer⟩
    apply (Meets.peek grounded.honest).runs.mono
    rintro shown afters ⟨_, uses, rfl, view, _⟩
    have less := uses.yields.length_le
    exact ⟨⟨shown (), rfl⟩, (shown ()).kind, (shown ()).value, fun _ => rfl, fun _ => rfl,
      fun real => ⟨grounded.uses uses, shown (), view, real, by omega⟩,
      fun _ => ⟨grounded.uses uses, by omega⟩⟩
  taken := by
    rintro count readers ⟨grounded, token, seen, real, within⟩
    apply (Meets.advance grounded.honest).runs.mono
    rintro shown afters ⟨_, uses, rfl, inView⟩
    rw [inView token seen] at uses
    have less := uses.yields.length_lt (.first real)
    exact ⟨⟨grounded.uses uses, by omega⟩, shown (), rfl⟩
  takenUnread _ _ _ stands := holds_advance _ stands
  asked := by
    rintro (count | count) readers stands
    · exact ⟨_, stands.1.closed, fun _ => rfl⟩
    · exact ⟨_, stands.1.closed, fun _ => rfl⟩
  counted := by
    intro count readers stands
    exact ⟨_, stands.2, ⟨stands.1, Nat.lt_succ_self _⟩,
      Nat.succ_le_succ (readers ()).length_stream_le_unread⟩

theorem grounded_opens : grounded.Opens grounded where
  alike := rfl
  enters := by
    rintro (count | count) readers stands
    · exact ⟨⟨stands.1.honest, stands.1.closed⟩, stands.2⟩
    · exact ⟨⟨stands.1.honest, stands.1.closed⟩, stands.2⟩
  exits stands := ⟨⟨stands.1.honest, stands.1.closed⟩, stands.2⟩
  moves moved honest := by
    obtain ⟨used, uses⟩ := moved honest
    exact ⟨used, uses.grammar, uses.honest, uses.yields⟩
  halts halts := halts

end Lockstep

end Parse

namespace Reader.Grounded

variable {α : Type} {reader : Reader} {production : Parse α} {promised : (Unit → α) → Prop}

/-- What runs from a grounded reader does not repeat for ever, and takes a token of the source if it
leaves less to read. -/
theorem meets {rest : Nat} (here : reader.Grounded)
    (holds : Parse.grounded.Holds (.behind (reader.stream.tokens.length + 1)) rest promised
      fun _ => production) :
    Parse.Meets False (fun _ used _ => rest ≤ reader.stream.tokens.length → TakesToken used) reader
      (production reader) := by
  cases holds (fun _ => reader) ⟨here, Nat.lt_succ_self _⟩ with
  | halt ran halting =>
      rw [show production reader = _ from ran ()]
      exact halting
  | done ran moves ends =>
      rw [show production reader = _ from ran ()]
      obtain ⟨used, uses⟩ := moves here.honest
      exact ⟨used, uses, fun within => uses.yields.takesToken (Nat.lt_of_lt_of_le ends.1.2 within)⟩

theorem advances (here : reader.Grounded)
    (holds : ∀ count, Parse.grounded.Holds (.behind count) (count - 1) promised
      fun _ => production) :
    Parse.Meets False Advances reader (production reader) :=
  (here.meets (holds _)).mono fun _ _ _ takes => takes (Nat.le_refl _)

end Reader.Grounded

/-- Inner statements and expressions do not repeat for ever, and take a token of the source. -/
abbrev Productions.Advancing (inner : Productions) : Prop :=
  ∀ bound, Obey Parse.grounded_lawful.discipline bound fun _ => inner

/-- Statements and expressions take a token of the source at every level. -/
theorem Productions.within_advancing (limit levels : Nat) :
    (Productions.within limit levels).Advancing :=
  fun bound => Lockstep.within_obey (fun _ => Parse.grounded_lawful)
    (fun _ => Parse.grounded_opens) limit bound levels

namespace Parse

variable {inner : Productions} {reader : Reader} (advancing : inner.Advancing)
include advancing

theorem statement_advances (grounded : reader.Grounded) :
    Meets False Advances reader (inner.statement reader) :=
  grounded.advances fun count => (advancing count).statement (Nat.le_refl _)

theorem expression_advances (grounded : reader.Grounded) (power : Power) :
    Meets False Advances reader (inner.expression power reader) :=
  grounded.advances fun count => (advancing count).expression power (Nat.le_refl _)

theorem grouping_advances (grounded : reader.Grounded) :
    Meets False Advances reader (grouping inner reader) :=
  grounded.advances fun count => (advancing count).grouping (Nat.le_succ _)

/-- An operand may begin with any token, if it was not asked for by its rule. -/
theorem operand_meets (grounded : reader.Grounded) (rule : OperandRule) :
    Meets False (fun _ _ _ => True) reader (operand inner rule reader) := by
  have obey := advancing (reader.stream.tokens.length + 1)
  have groups := Parse.grounded_lawful.widen
    (obey.grouping (Nat.le_succ (reader.stream.tokens.length + 1))) (Nat.sub_le _ _)
  exact (grounded.meets (obey.operandFrom rule holds_advance groups (Nat.le_refl _))).mono
    fun _ _ _ _ => trivial

/-- An operator may be the end of the input, but its right operand never is. -/
theorem operator_advances (grounded : reader.Grounded) (left : Expression) (power : Power)
    (rule : OperatorRule) :
    Meets False Advances reader (operator inner left power rule reader) :=
  grounded.advances fun count =>
    (advancing count).operator power rule holds_advance ⟨left, rfl⟩ (Nat.le_refl _)

theorem operators_round {power : Power} {left : Expression} (grounded : reader.Grounded) :
    Round (fun left rounds => operators inner power rounds left) (fun used _ _ => TakesToken used)
      (fun rounds => operators inner power (rounds + 1) left) reader := by
  apply Round.bind (Meets.peekKind grounded.honest)
  rintro _ _ after uses ⟨rfl, token, rfl, _⟩
  apply Round.bind (Meets.get uses.honest)
  rintro middle _ last here ⟨rfl, _⟩
  have grounded := (grounded.uses uses).uses here
  dsimp only
  cases middle.grammar.powers token.kind with
  | none => exact .done here.honest
  | some next =>
      cases middle.grammar.operators token.kind with
      | none => exact .done here.honest
      | some rule =>
          by_cases weak : next ≤ power
          · simp only [if_pos weak]
            exact .done here.honest
          · simp only [if_neg weak]
            apply Round.bind (operator_advances advancing grounded left next rule)
            intro value used reached onward takes
            exact .next value onward.honest (fun _ => (bind_pure _).symm) takes.before

theorem alternatives_round (grounded : reader.Grounded) :
    Round (fun (_ : Unit) => alternatives inner) (fun used _ _ => TakesToken used)
      (fun rounds => alternatives inner (rounds + 1)) reader := by
  apply Round.bind (Meets.peekKind grounded.honest)
  rintro _ _ after uses ⟨rfl, token, rfl, seen, _⟩
  by_cases isElse : token.kind = .elseWord
  · simp only [if_pos isElse]
    have starts : Meets False Advances after (advance after) := by
      apply (Meets.advance uses.honest).mono
      rintro shown _ _ ⟨rfl, inView⟩
      rw [inView token seen]
      exact .first (by rw [isElse]; decide)
    apply Round.bind starts
    intro _ used middle onward takes
    have behind := (grounded.uses uses).uses onward
    apply Round.bind (Meets.peekKind behind.honest)
    rintro kind _ last further ⟨rfl, _⟩
    have beyond := behind.uses further
    by_cases isIf : kind = .ifWord
    · simp only [if_pos isIf]
      apply Round.bind (Meets.advance beyond.honest)
      rintro _ word reader₁ uses₁ _
      apply Round.bind (grouping_advances advancing (beyond.uses uses₁))
      rintro _ _ reader₂ uses₂ _
      apply Round.bind (statement_advances advancing ((beyond.uses uses₁).uses uses₂))
      rintro _ _ reader₃ uses₃ _
      exact .next () uses₃.honest (fun _ => rfl) takes.before
    · simp only [if_neg isIf]
      apply Round.bind (statement_advances advancing beyond)
      intro _ _ _ ends _
      exact .done ends.honest
  · simp only [if_neg isElse]
    exact .done uses.honest

theorem statements_round (grounded : reader.Grounded) :
    Round (fun (_ : Unit) => statements inner) (fun used _ _ => TakesToken used)
      (fun rounds => statements inner (rounds + 1)) reader := by
  apply Round.bind (Meets.peekKind grounded.honest)
  rintro kind _ after uses ⟨rfl, _⟩
  by_cases final : kind = .closeCurly ∨ kind = .endOfInput
  · simp only [if_pos final]
    exact .done uses.honest
  · simp only [if_neg final]
    apply Round.bind (statement_advances advancing (grounded.uses uses))
    intro first used last onward takes
    exact .next () onward.honest (fun _ => rfl) takes.before

theorem program_round (grounded : reader.Grounded) :
    Round (fun (_ : Unit) => program inner) (fun used _ _ => TakesToken used)
      (fun rounds => program inner (rounds + 1)) reader := by
  have looks : Meets False (fun _ used _ => used = []) reader (hasTokens reader) := by
    apply Meets.lookKind grounded.honest
    intro token after uses _ _
    exact .done uses.honest rfl
  apply Round.bind looks
  rintro more _ after uses rfl
  cases more with
  | false => exact .done uses.honest
  | true =>
      apply Round.bind (statement_advances advancing (grounded.uses uses))
      intro first used last onward takes
      exact .next () onward.honest (fun _ => rfl) takes.before

/-- Each of the loops goes on no more often than there are characters, and a token in view. -/
structure LoopsEnd (inner : Productions) (reader : Reader) : Prop where
  operators : ∀ power left,
    EndsWithin (fun left rounds => operators inner power rounds left) reader.unread left reader
  alternatives : EndsWithin (fun (_ : Unit) => alternatives inner) reader.unread () reader
  statements : EndsWithin (fun (_ : Unit) => statements inner) reader.unread () reader
  program : EndsWithin (fun (_ : Unit) => program inner) reader.unread () reader

theorem loopsEnd (grounded : reader.Grounded) : LoopsEnd inner reader where
  operators _ _ := endsWithin_of_rounds .uses (operators_round advancing) grounded
    reader.length_stream_le_unread
  alternatives := endsWithin_of_rounds .uses (alternatives_round advancing) grounded
    reader.length_stream_le_unread
  statements := endsWithin_of_rounds .uses (statements_round advancing) grounded
    reader.length_stream_le_unread
  program := endsWithin_of_rounds .uses (program_round advancing) grounded
    reader.length_stream_le_unread

end Parse

/-! ## Sessions -/

/-- A token that is read moves the cursor forward. -/
theorem Cursor.nextToken_forward {cursor after : Cursor} {token : Token}
    (read : cursor.nextToken = (.ok token, after)) :
    cursor.place.offset < after.place.offset ∧ after.rest.length < cursor.rest.length := by
  obtain ⟨gap, _, _, visible, _, place, _⟩ := Cursor.nextToken_takes read
  have long := List.length_pos_iff.mpr visible
  refine ⟨?_, Cursor.nextToken_rest_lt read⟩
  rw [place, Place.offset_past, List.length_append]
  omega

namespace Reader

variable {reader : Reader}

theorem ask_ne_endless {α : Type} {promised : α → List Token → Option Token → Prop}
    {run : Parse α} {reply : α → Reply} (meets : Parse.Meets False promised reader (run reader))
    (answers : ∀ value, reply value ≠ .halted .endless) :
    (reader.ask run reply).1 ≠ .halted .endless := by
  unfold ask
  split
  next value after _ => exact answers value
  next halt after ran =>
    rw [ran] at meets
    rintro ⟨⟩
    exact meets rfl

/-- A production that is started with as many levels as there is room for. -/
theorem Grounded.start_ne_endless {α : Type} {production : Productions → Parse α}
    {reply : α → Reply} {rest : Nat} {promised : (Unit → α) → Prop} (grounded : reader.Grounded)
    (holds : Parse.grounded.Holds (.behind (reader.stream.tokens.length + 1)) rest promised fun _ =>
      production (.within Parse.nestingLimit (Parse.nestingLimit - reader.depth)))
    (answers : ∀ value, reply value ≠ .halted .endless) :
    (reader.ask (Parse.start Parse.nestingLimit production) reply).1 ≠ .halted .endless := by
  have meets := grounded.meets holds
  exact @ask_ne_endless _ _ _ (Parse.start Parse.nestingLimit production) _ meets answers

/-- Whatever is asked of the reader, it does not repeat for ever. -/
theorem Grounded.perform_ne_endless (grounded : reader.Grounded) (request : Request) :
    (reader.perform request).1 ≠ .halted .endless := by
  have advancing := Productions.within_advancing Parse.nestingLimit
    (Parse.nestingLimit - reader.depth)
  have obey := advancing (reader.stream.tokens.length + 1)
  have room := Nat.le_succ (reader.stream.tokens.length + 1)
  cases request with
  | file | grammar | registerStatement | registerOperand | registerOperator => rintro ⟨⟩
  | peek => exact ask_ne_endless (.peek grounded.honest) (by simp)
  | peekKind => exact ask_ne_endless (.peekKind grounded.honest) (by simp)
  | advance => exact ask_ne_endless (.advance grounded.honest) (by simp)
  | hasTokens =>
      have meets : Parse.Meets False (fun _ _ _ => True) reader (Parse.hasTokens reader) :=
        .lookKind grounded.honest fun _ _ uses _ _ => .done uses.honest trivial
      exact ask_ne_endless meets (by simp)
  | expect kind => exact ask_ne_endless (.expectOneOf grounded.honest) (by simp)
  | expectOneOf kinds => exact ask_ne_endless (.expectOneOf grounded.honest) (by simp)
  | statement => exact grounded.start_ne_endless (obey.statement (Nat.le_refl _)) (by simp)
  | expression power =>
      exact grounded.start_ne_endless (obey.expression power (Nat.le_refl _)) (by simp)
  | conditional => exact grounded.start_ne_endless (obey.conditional room) (by simp)
  | loop => exact grounded.start_ne_endless (obey.loop room) (by simp)
  | assignment => exact grounded.start_ne_endless (obey.assignment room) (by simp)
  | block => exact grounded.start_ne_endless (obey.block room) (by simp)
  | program =>
      have holds := obey.programBlock (fun {readers} _ => .const (Place.start.inFile
        (readers ()).cursor.file)) (Nat.le_refl _)
      exact grounded.start_ne_endless holds (by simp)
  | primary => exact ask_ne_endless (Parse.operand_meets advancing grounded .primary) (by simp)
  | reference => exact ask_ne_endless (Parse.operand_meets advancing grounded .reference) (by simp)
  | unary => exact ask_ne_endless (Parse.operand_meets advancing grounded .unary) (by simp)
  | grouping => exact grounded.start_ne_endless (obey.grouping room) (by simp)
  | binary power =>
      have meets : Parse.Meets False Advances reader (Parse.afterPrimary power reader) := by
        apply (Parse.operand_meets advancing grounded .primary).bind
        intro left _ after uses _
        apply (Parse.operator_advances (Productions.within_advancing _ _) (grounded.uses uses) left
          power .binary).mono
        exact fun _ _ _ takes => takes.behind
      exact ask_ne_endless meets (by simp)
  | nested requests =>
      by_cases room : reader.depth < Parse.nestingLimit
      · simp only [perform, ask, Parse.nested, if_pos room, Parse.opened]
        rintro ⟨⟩
      · have full : ∀ production : Parse (List Reply), Parse.Meets False (fun _ _ _ => True) reader
            (Parse.nested Parse.nestingLimit production reader) := by
          intro production
          rw [Parse.nested, if_neg room]
          exact .tooDeep grounded.honest _
        exact ask_ne_endless (full _) (by simp)

/-- What it means that reading ends: no request repeats for ever; statements and expressions take a
token of the source; from wherever a production has come to, at any level, each loop goes on no more
often than there are characters left, and a token in view; and tokens are read by moving forward. -/
structure Terminates (reader : Reader) : Prop where
  replies : ∀ request, (reader.perform request).1 ≠ .halted .endless
  statement : ∀ {value after}, Parse.statement Parse.nestingLimit reader = .ok value after →
    ∃ used, reader.stream.Yields used after.stream ∧ TakesToken used
  expression : ∀ {power value after},
    Parse.expression Parse.nestingLimit power reader = .ok value after →
    ∃ used, reader.stream.Yields used after.stream ∧ TakesToken used
  loops : ∀ {used middle}, reader.Uses used middle → ∀ levels,
    Parse.LoopsEnd (Productions.within Parse.nestingLimit levels) middle
  forward : ∀ {cursor after : Cursor} {token}, cursor.nextToken = (.ok token, after) →
    cursor.place.offset < after.place.offset ∧ after.rest.length < cursor.rest.length

end Reader

/-- Reading ends, in every state that a session comes to, and with all tables that have no rule for
an operand at the end of the input.  Statements and operators may have one. -/
theorem perform_terminates {source : String} {file : Option String} {level : Nat} {reader : Reader}
    (reached : Reader.Reached source file level reader)
    (closed : reader.grammar.operands .endOfInput = none) : reader.Terminates := by
  have grounded : reader.Grounded := ⟨reached.endsTrue, closed⟩
  have advancing := Productions.within_advancing Parse.nestingLimit
    (Parse.nestingLimit - reader.depth)
  refine ⟨grounded.perform_ne_endless, ?_, ?_, ?_, Cursor.nextToken_forward⟩
  · intro value after read
    have meets := Parse.statement_advances advancing grounded
    rw [Parse.statement, Parse.start] at read
    rw [read] at meets
    obtain ⟨used, uses, takes⟩ := meets
    exact ⟨used, uses.yields, takes⟩
  · intro power value after read
    have meets := Parse.expression_advances advancing grounded power
    rw [Parse.expression, Parse.start] at read
    rw [read] at meets
    obtain ⟨used, uses, takes⟩ := meets
    exact ⟨used, uses.yields, takes⟩
  · intro used middle uses levels
    exact Parse.loopsEnd (Productions.within_advancing _ _) (grounded.uses uses)

/-- The end of the input is made the strongest operator and the start of a block, and what is left
of the source is an operand. -/
theorem perform_terminates_operator_at_end :
    ∃ reader, Reader.Reached "$a = 1; $b" none 1 reader ∧
      reader.grammar.operators .endOfInput = some .binary ∧
      reader.grammar.statements .endOfInput = some .block ∧
      reader.lookahead.isSome = true ∧ reader.Terminates := by
  have begun := (@Reader.Reached.start "$a = 1; $b" none).perform .statement
  have inside := (begun.perform (.registerOperator .endOfInput .unary .binary)).enter
    (by decide +kernel)
  have reached := (inside.perform (.registerStatement .endOfInput .block)).perform .peek
  exact ⟨_, reached, by decide +kernel, by decide +kernel, by decide +kernel,
    perform_terminates reached (by decide +kernel)⟩

end Scriptlet
