import Scriptlet.Proofs.Nesting.Unlimited

/-!
# The limit on nesting

Reading with a limit beside reading without one.  As long as no more productions are open at one
time than the limit allows, the two do the same, and if more are open, reading with the limit stops
where the first of them would have been opened (`Beside`).  Nothing else depends on the limit
(`parse_limit_exact`).
-/

namespace Scriptlet

/-- The reader with some of its productions closed. -/
def Reader.leave (count : Nat) (reader : Reader) : Reader :=
  { reader with depth := reader.depth - count }

namespace Productions

/-- Whatever production is asked for on this reader, reading halts. -/
structure HaltsOn (bottom : Productions) (reader : Reader) (halt : Halt) (last : Reader) :
    Prop where
  statement : bottom.statement reader = .error halt last
  expression : ∀ power, bottom.expression power reader = .error halt last

/-- Productions of which `levels` may be open, over each choice of what is asked for more, and in
the place of `none` productions that ask for nothing else. -/
def besides (free : Productions) (levels : Nat) : Option Productions → Productions
  | none => free
  | some bottom => bottom.raised levels

/-- Productions that complain that they nest too deeply. -/
def full (limit : Nat) : Productions := ⟨Parse.tooDeep limit, fun _ => Parse.tooDeep limit⟩

theorem within_eq_raised (limit levels : Nat) :
    within limit levels = (full limit).raised levels := by
  induction levels with
  | zero => rfl
  | succ levels ih => rw [within, raised, ih]

end Productions

namespace Parse

variable {α β : Type} {cap depth : Nat} {promised : (Option Productions → α) → Prop}
  {further : (Option Productions → β) → Prop}

/-- The result of a run, without the reader that it leaves. -/
def outcome : EStateM.Result Halt Reader α → Except Halt α
  | .ok value _ => .ok value
  | .error halt _ => .error halt

/-- Runs that ask something else for more than `cap` productions open at one time, beside the run of
`none`, which does not.  All begin with `depth` open productions. -/
inductive Beside (cap depth : Nat) (promised : (Option Productions → α) → Prop)
    (runs : Option Productions → EStateM.Result Halt Reader α) : Prop where
  /-- No more were ever open, and nothing else was asked. -/
  | done {values : Option Productions → α} {after : Reader} (promise : promised values)
      (same : ∀ member, runs member = .ok (values member) after) (level : after.depth = depth)
      (low : after.deepest ≤ cap) : Beside cap depth promised runs
  /-- Reading halted before more were open. -/
  | halt {halt : Halt} {after : Reader} (same : ∀ member, runs member = .error halt after)
      (level : after.depth = depth) (low : after.deepest ≤ cap) : Beside cap depth promised runs
  /-- More were open, and what is asked instead is asked first on the reader that the first of them
  was to be opened on. -/
  | beyond (stand : Reader) (full : stand.depth = cap) (first : stand.deepest = cap)
      (halted : ∀ bottom halt last, bottom.HaltsOn stand halt last →
        runs (some bottom) = .error halt (last.leave (cap - depth)))
      (deeper : cap < (left (runs none)).deepest) : Beside cap depth promised runs

/-- Without too many productions open the members do the same. -/
theorem Beside.same_of_low {runs : Option Productions → EStateM.Result Halt Reader α}
    (beside : Beside cap depth promised runs)
    (uniform : ∀ {values}, promised values → Uniform values)
    (low : (left (runs none)).deepest ≤ cap) (member : Option Productions) :
    runs member = runs none := by
  cases beside with
  | done promise same _ _ =>
      obtain ⟨value, rfl⟩ := uniform promise
      exact (same member).trans (same none).symm
  | halt same _ _ => exact (same member).trans (same none).symm
  | beyond _ _ _ _ deeper => exact absurd low (Nat.not_le_of_lt deeper)

/-- With too many productions open there is a reader that the first of them was to be opened on. -/
theorem Beside.stand_of_high {runs : Option Productions → EStateM.Result Halt Reader α}
    (beside : Beside cap depth promised runs) (high : cap < (left (runs none)).deepest) :
    ∃ stand : Reader, stand.depth = cap ∧ stand.deepest = cap ∧
      ∀ bottom halt last, bottom.HaltsOn stand halt last →
        runs (some bottom) = .error halt (last.leave (cap - depth)) := by
  cases beside with
  | done _ same _ low =>
      rw [same none] at high
      exact absurd low (Nat.not_le_of_lt high)
  | halt same _ low =>
      rw [same none] at high
      exact absurd low (Nat.not_le_of_lt high)
  | beyond stand full first halted _ => exact ⟨stand, full, first, halted⟩

/-- The run without a limit forgets neither the language nor how deep reading has been, and its
result is the one promised of it. -/
structure Grown (promised : (Option Productions → α) → Prop) (reader : Reader)
    (run : EStateM.Result Halt Reader α) : Prop where
  grammar : (left run).grammar = .standard
  deepest : reader.deepest ≤ (left run).deepest
  promise : ∀ {value after}, run = .ok value after → ∃ values, promised values ∧ values none = value

/-- A production without a limit grows from every reader that knows the language. -/
def Growing (promised : (Option Productions → α) → Prop) (production : Parse α) : Prop :=
  ∀ reader : Reader, reader.grammar = .standard → Grown promised reader (production reader)

/-- The members with a bottom run beside the one without, from every reader with `depth` productions
open. -/
structure Bounded (cap depth : Nat) (promised : (Option Productions → α) → Prop)
    (family : Option Productions → Parse α) : Prop where
  growing : Growing promised (family none)
  beside : ∀ reader : Reader, reader.grammar = .standard → reader.depth = depth →
    depth ≤ reader.deepest → reader.deepest ≤ cap →
    Beside cap depth promised fun member => family member reader

/-- Any result is as good as promised if it is to be the same for all members. -/
theorem Grown.uniform {reader : Reader}
    {run : EStateM.Result Halt Reader α} (grammar : (left run).grammar = .standard)
    (deepest : reader.deepest ≤ (left run).deepest) : Grown Uniform reader run :=
  ⟨grammar, deepest, fun {value _} _ => ⟨fun _ => value, ⟨value, rfl⟩, rfl⟩⟩

theorem left_opened (production : Parse α) (reader : Reader) :
    left (opened production reader) = (left (production reader.entered)).exited := by
  cases ran : production reader.entered with
  | ok value after => rw [opened_of_ok ran]; rfl
  | error halt after => rw [opened_of_error ran]; rfl

namespace Growing

theorem ofSteady {production : Parse α} {rest : Nat → Nat}
    (holds : ∀ bound, (steady Unit).Holds (.behind (bound + 1)) (rest bound) Uniform
      fun _ => production) :
    Growing Uniform production := by
  intro reader knows
  cases holds reader.unread (fun _ => reader) ⟨reader, rfl, knows, Nat.lt_succ_self _⟩ with
  | halt ran halting =>
      obtain ⟨_, ⟨after, rfl, still⟩, grown⟩ := halting
      have ran : production reader = _ := ran ()
      rw [ran]
      exact .uniform still (grown ())
  | done ran grown ends =>
      obtain ⟨⟨after, rfl, still, _⟩, _⟩ := ends
      have ran : production reader = _ := ran ()
      rw [ran]
      exact .uniform still (grown ())

theorem bind {first : Parse α} {second : Option Productions → α → Parse β}
    (one : Growing promised first)
    (two : ∀ values, promised values → Growing further (second none (values none))) :
    Growing further (first >>= second none) := by
  intro reader knows
  obtain ⟨still, grown, promise⟩ := one reader knows
  cases ran : first reader with
  | error halt after =>
      rw [ran] at still grown
      rw [bind_of_error ran]
      exact ⟨still, grown, nofun⟩
  | ok value after =>
      obtain ⟨values, promised, rfl⟩ := promise ran
      rw [ran] at still grown
      rw [bind_of_ok ran]
      obtain ⟨last, further, kept⟩ := two values promised after still
      exact ⟨last, Nat.le_trans grown further, kept⟩

/-- Opening a level is remembered. -/
theorem opened {production : Parse α} (growing : Growing promised production) {reader : Reader}
    (knows : reader.grammar = .standard) :
    reader.depth < (left (Parse.opened production reader)).deepest ∧
      Grown promised reader (Parse.opened production reader) := by
  obtain ⟨still, grown, promise⟩ := growing reader.entered knows
  have within : max reader.deepest (reader.depth + 1) ≤
      (left (Parse.opened production reader)).deepest := by
    rw [left_opened]
    exact grown
  refine ⟨by omega, ?_, by omega, ?_⟩
  · rw [left_opened]
    exact still
  · intro value after ran
    cases inside : production reader.entered with
    | error halt last => cases (opened_of_error inside).symm.trans ran
    | ok value last =>
        cases (opened_of_ok inside).symm.trans ran
        exact promise inside

end Growing

namespace Bounded

/-- A step that all members share. -/
theorem ofStep {step : Parse α} (moved : ∀ reader, Moved reader (left (step reader))) :
    Bounded cap depth Uniform fun _ => step := by
  constructor
  · intro reader knows
    exact .uniform ((moved reader).grammar.trans knows) (Nat.le_of_eq (moved reader).deepest.symm)
  · intro reader _ level _ low
    have moved := moved reader
    cases ran : step reader with
    | ok value after =>
        rw [ran] at moved
        exact .done ⟨value, rfl⟩ (fun _ => rfl) (moved.depth.trans level) (moved.deepest ▸ low)
    | error halt after =>
        rw [ran] at moved
        exact .halt (fun _ => rfl) (moved.depth.trans level) (moved.deepest ▸ low)

theorem done {values : Option Productions → α} (promise : promised values) :
    Bounded cap depth promised fun member => pure (values member) where
  growing _ knows := by
    refine ⟨knows, Nat.le_refl _, ?_⟩
    rintro _ _ ⟨⟩
    exact ⟨values, promise, rfl⟩
  beside _ _ level _ low := .done promise (fun _ => rfl) level low

theorem halt (halt : Halt) : Bounded cap depth promised fun _ => throw halt where
  growing _ knows := ⟨knows, Nat.le_refl _, nofun⟩
  beside _ _ level _ low := .halt (fun _ => rfl) level low

theorem bind {first : Option Productions → Parse α} {second : Option Productions → α → Parse β}
    (one : Bounded cap depth promised first)
    (two : ∀ values, promised values →
      Bounded cap depth further fun member => second member (values member)) :
    Bounded cap depth further fun member => first member >>= second member := by
  refine ⟨one.growing.bind fun values promise => (two values promise).growing, ?_⟩
  intro reader knows level high low
  obtain ⟨still, grown, promised⟩ := one.growing reader knows
  cases one.beside reader knows level high low with
  | halt same after deepest =>
      exact .halt (fun member => bind_of_error (same member)) after deepest
  | done promise same after deepest =>
      rw [same none] at still grown
      simp only [bind_of_ok (same _)]
      exact (two _ promise).beside _ still after (Nat.le_trans high grown) deepest
  | beyond stand full opened halted deeper =>
      refine .beyond stand full opened ?_ ?_
      · intro bottom halt last halts
        exact bind_of_error (halted bottom halt last halts)
      · -- Without a limit reading may go on, but it does not forget how deep it was.
        cases ran : first none reader with
        | error halt last =>
            rw [ran] at deeper
            rw [bind_of_error ran]
            exact deeper
        | ok value last =>
            obtain ⟨values, promise, rfl⟩ := promised ran
            rw [ran] at deeper still
            rw [bind_of_ok ran]
            exact Nat.lt_of_lt_of_le deeper ((two values promise).growing last still).deepest

/-- All members ask the same reader. -/
theorem ask {next : Option Productions → Reader → Parse α}
    (further : ∀ reader : Reader, reader.grammar = .standard →
      Bounded cap depth promised fun member => next member reader) :
    Bounded cap depth promised fun member => get >>= next member where
  growing reader knows := (further reader knows).growing reader knows
  beside reader knows := (further reader knows).beside reader knows

/-- A production is opened where one more may be open. -/
theorem opened {family : Option Productions → Parse α} (room : depth < cap)
    (bounded : Bounded cap (depth + 1) promised family) :
    Bounded cap depth promised fun member => Parse.opened (family member) := by
  refine ⟨fun reader knows => (bounded.growing.opened knows).2, ?_⟩
  intro reader knows level high low
  have inside : reader.entered.depth = depth + 1 := congrArg (· + 1) level
  have deepest : reader.entered.deepest = max reader.deepest (depth + 1) := by
    rw [Reader.entered, level]
  cases bounded.beside reader.entered knows inside (by omega) (by omega) with
  | done promise same after deepest =>
      refine .done promise (fun member => opened_of_ok (same member)) ?_ deepest
      exact congrArg (· - 1) after
  | halt same after deepest =>
      refine .halt (fun member => opened_of_error (same member)) ?_ deepest
      exact congrArg (· - 1) after
  | beyond stand full first halted deeper =>
      refine .beyond stand full first ?_ ?_
      · intro bottom halt last halts
        have closed : cap - depth = cap - (depth + 1) + 1 := by omega
        rw [opened_of_error (halted bottom halt last halts), closed]
        rfl
      · rw [left_opened]
        exact deeper

/-- Only what is done on readers that know the language matters. -/
theorem congr {family other : Option Productions → Parse α}
    (bounded : Bounded cap depth promised family)
    (same : ∀ member, ∀ reader : Reader, reader.grammar = .standard →
      other member reader = family member reader) :
    Bounded cap depth promised other := by
  constructor
  · intro reader knows
    rw [same none reader knows]
    exact bounded.growing reader knows
  · intro reader knows level high low
    simp only [same _ reader knows]
    exact bounded.beside reader knows level high low

/-- With no level left, the reader is the one that something else is asked on. -/
theorem ofFull {family : Option Productions → Parse α} {body : Parse α}
    (growing : Growing promised body)
    (free : ∀ reader : Reader, reader.grammar = .standard →
      family none reader = Parse.opened body reader)
    (asked : ∀ (bottom : Productions) reader halt last, bottom.HaltsOn reader halt last →
      family (some bottom) reader = .error halt last) :
    Bounded cap cap promised family := by
  constructor
  · intro reader knows
    rw [free reader knows]
    exact (growing.opened knows).2
  · intro reader knows level high low
    refine .beyond reader level (Nat.le_antisymm low high) ?_ ?_
    · intro bottom halt last halts
      rw [asked bottom reader halt last halts, Nat.sub_self]
      rfl
    · rw [free reader knows, ← level]
      exact (growing.opened knows).1

end Bounded

/-- Reading beside one another is handed on to the productions made of inner ones.  It is the same
at every stage. -/
def bounded (cap depth : Nat) : Discipline (Option Productions) where
  toLikeness := .same _
  holds _ _ _ promised family := Bounded cap depth promised family
  member := none
  real _ := True
  known grammar := grammar = .standard
  stands := Uniform
  enough _ rounds := Uniform rounds
  genuine _ := trivial
  ruled _ _ := trivial
  spent enough _ := enough.pred
  done := Bounded.done
  blame := by
    rintro _ _ _ _ _ cause ⟨token, rfl⟩ _
    exact Bounded.halt _
  exhausted := by
    rintro _ _ _ _ family _ member ⟨rounds, rfl⟩ none endless
    rw [show family = fun _ => throw .endless from funext fun other => endless other none]
    exact Bounded.halt _
  bind := Bounded.bind
  widen holds _ := holds
  relax holds := holds
  look real _ := Bounded.bind (Bounded.ofStep moved_peek) fun shown ⟨token, same⟩ =>
    real shown token.kind token.value ⟨token, same⟩ (fun _ => by rw [same]) (fun _ => by rw [same])
      trivial
  take := Bounded.ofStep moved_advance
  takeUnread _ _ _ := Bounded.ofStep moved_advance
  ask further := Bounded.ask fun reader knows =>
    further (fun _ => reader) _ ⟨reader, rfl⟩ knows fun _ => rfl
  count further := Bounded.ask fun reader _ => further _ _ (Nat.le_refl _) ⟨reader.unread + 1, rfl⟩

/-- Whatever is asked for more than the levels there are, it is asked where the first production
further in would be opened. -/
theorem besides_bounded {free : Productions} (unchecked : free.Unchecked) (bound levels : Nat)
    (split : depth + levels = cap) :
    Productions.Obey (bounded cap depth) bound (free.besides levels) := by
  induction levels generalizing depth with
  | zero =>
      cases split
      have steady := unchecked.areSteady
      constructor
      · intro _ _
        exact Bounded.ofFull (.ofSteady fun bound => (steady bound).statementBody (Nat.le_refl _))
          unchecked.statement fun _ _ _ _ halts => halts.statement
      · intro _ power _
        exact Bounded.ofFull
          (.ofSteady fun bound => (steady bound).expressionBody power (Nat.le_refl _))
          (unchecked.expression power) fun _ _ _ _ halts => halts.expression power
  | succ levels ih =>
      have inner := @ih (depth + 1) (by omega)
      have room : depth < cap := by omega
      constructor
      · intro _ within
        apply (Bounded.opened room (inner.statementBody (Nat.le_succ_of_le within))).congr
        intro member reader knows
        cases member with
        | none => exact unchecked.statement reader knows
        | some bottom => rfl
      · intro _ power within
        apply (Bounded.opened room (inner.expressionBody power (Nat.le_succ_of_le within))).congr
        intro member reader knows
        cases member with
        | none => exact unchecked.expression power reader knows
        | some bottom => rfl

/-! ## The limit of the language -/

/-- The reader as it stands in a source where for the first time a production is to be opened inside
`count` others.  If anything is asked there instead, and halts, then reading halts by it, whatever
would be asked later. -/
structure StandsBefore (count : Nat) (source : String) (file : Option String)
    (stand : Reader) : Prop where
  full : stand.depth = count
  first : stand.deepest = count
  halted : ∀ bottom halt last, Productions.HaltsOn bottom stand halt last →
    programBlock (bottom.raised count) (Reader.ofSource source file) =
      .error halt (last.leave count)

theorem parse_eq_outcome (source : String) (file : Option String) :
    parse source file = outcome (programBlock
      ((Productions.full nestingLimit).raised nestingLimit) (Reader.ofSource source file)) := by
  have started : start nestingLimit programBlock (Reader.ofSource source file) =
      programBlock (Productions.within nestingLimit nestingLimit) (Reader.ofSource source file) :=
    rfl
  rw [← Productions.within_eq_raised, parse, parseWithin, started]
  cases programBlock (Productions.within nestingLimit nestingLimit)
    (Reader.ofSource source file) <;> rfl

/-- Reading a source with the limit on nesting beside reading it without one.  If no more
productions are ever open at one time than the limit allows, the result is the same.  If more are,
reading fails: where the first production too many would be opened, it complains about the token
there, or it meets the fault that stands in the place of that token. -/
theorem parse_limit_exact {free : Productions} (unchecked : free.Unchecked) (source : String)
    (file : Option String) :
    ((left (programBlock free (Reader.ofSource source file))).deepest ≤ nestingLimit →
        parse source file = outcome (programBlock free (Reader.ofSource source file))) ∧
      (nestingLimit < (left (programBlock free (Reader.ofSource source file))).deepest →
        ∃ stand, StandsBefore nestingLimit source file stand ∧
          ((∃ token after, peek stand = .ok token after ∧ parse source file =
              .error (.failed ⟨.nestingTooDeep nestingLimit, token.span.start⟩)) ∨
            ∃ diagnostic after, peek stand = .error (.failed diagnostic) after ∧
              diagnostic.cause.phase = .lexical ∧
              parse source file = .error (.failed diagnostic))) := by
  have obey := besides_bounded unchecked 0 nestingLimit (Nat.zero_add _)
  have origin : ∀ {readers : Option Productions → Reader}, Uniform readers →
      Uniform fun member => Place.start.inFile (readers member).cursor.file := by
    rintro _ ⟨reader, rfl⟩
    exact ⟨_, rfl⟩
  have program := obey.programBlock origin (Nat.le_refl 0)
  have beside := program.beside (Reader.ofSource source file) rfl rfl (Nat.le_refl _)
    (Nat.zero_le _)
  rw [parse_eq_outcome]
  constructor
  · intro low
    exact congrArg outcome (beside.same_of_low Likeness.Whole.uniform low (some (.full _)))
  · intro high
    obtain ⟨stand, full, first, halted⟩ := beside.stand_of_high high
    refine ⟨stand, ⟨full, first, halted⟩, ?_⟩
    cases looked : peek stand with
    | ok token after =>
        have halts : (Productions.full nestingLimit).HaltsOn stand
            (.failed ⟨.nestingTooDeep nestingLimit, token.span.start⟩) after :=
          ⟨bind_of_ok looked, fun _ => bind_of_ok looked⟩
        exact .inl ⟨token, after, rfl, congrArg outcome (halted _ _ _ halts)⟩
    | error halt after =>
        obtain ⟨diagnostic, rfl, lexical⟩ := peek_error looked
        have halts : (Productions.full nestingLimit).HaltsOn stand (.failed diagnostic) after :=
          ⟨bind_of_error looked, fun _ => bind_of_error looked⟩
        exact .inr ⟨diagnostic, after, rfl, lexical, congrArg outcome (halted _ _ _ halts)⟩

/-- There is a source with one production too many: a value behind 63 times `!`.  Reading it with
the limit complains about the value. -/
theorem parse_limit_exact_negations :
    Productions.unlimited.Unchecked ∧ ∃ source,
      nestingLimit < (left (programBlock Productions.unlimited
        (Reader.ofSource source none))).deepest ∧
      ∃ stand, StandsBefore nestingLimit source none stand ∧
        ∃ token after, peek stand = .ok token after ∧
          token.span.start = ⟨131, 1, 132, "shell"⟩ ∧
          parse source none =
            .error (.failed ⟨.nestingTooDeep nestingLimit, token.span.start⟩) := by
  let source := String.ofList
    ("$x = ".toList ++ (List.replicate 63 ['!', ' ']).flatten ++ "1;".toList)
  have deep : nestingLimit < (left (programBlock Productions.unlimited
      (Reader.ofSource source none))).deepest := by
    decide +kernel
  have complains : parse source none =
      .error (.failed ⟨.nestingTooDeep nestingLimit, ⟨131, 1, 132, "shell"⟩⟩) := by
    decide +kernel
  refine ⟨Productions.unlimited_unchecked, source, deep, ?_⟩
  obtain ⟨stand, stands, ⟨token, after, looked, failed⟩ | ⟨diagnostic, _, _, lexical, failed⟩⟩ :=
    (parse_limit_exact Productions.unlimited_unchecked source none).2 deep
  · have start : token.span.start = ⟨131, 1, 132, "shell"⟩ := by
      simpa using failed.symm.trans complains
    exact ⟨stand, stands, token, after, looked, start, failed⟩
  · cases complains.symm.trans failed
    cases lexical

end Parse

end Scriptlet
