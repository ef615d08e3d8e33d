import Scriptlet.Proofs.Derivation.Relocate
import Scriptlet.Proofs.Families.Lockstep

/-!
# Two readers in step

Two readers see the same tokens at different places.  `Pairing` names the tokens that they have in
common and says where each of the two sees them.  Whatever production the two readers are put to,
they do the same: both go on with results that differ in positions only and with the same tokens
left, or both halt and blame the same token for the same cause (`Pairing.lockstep`).  The one thing
that may differ inside is how many rounds a loop is given, for this is reckoned from the text.
-/

namespace Scriptlet

/-- Tokens that two readers have in common.  Once positions are moved, each of them is the same for
both. -/
structure Pairing (ι : Type) where
  shown : Bool → ι → Token
  move : Bool → Position → Position
  same : ∀ item, Uniform fun member => (shown member item).relocate (move member)

/-- What ends two streams: a token that both see, or a fault for each. -/
abbrev Pairing.Ending (ι : Type) := Except (Bool → Diagnostic) ι

namespace Pairing

variable {ι : Type} (pairing : Pairing ι) {ending : Ending ι}

/-- The ending as one of the readers sees it. -/
def endingOf (ending : Ending ι) (member : Bool) : Except Diagnostic Token :=
  match ending with
  | .ok item => .ok (pairing.shown member item)
  | .error faults => .error (faults member)

/-- Both readers are going to see the items, each at its own places, and then the ending. -/
def Reads (items : List ι) (ending : Ending ι) (readers : Bool → Reader) : Prop :=
  ∀ member, (readers member).Reads (items.map (pairing.shown member))
    (pairing.endingOf ending member)

/-- Both diagnostics blame one item for one cause, or they are the faults that end the streams. -/
inductive Blames (ending : Ending ι) : (Bool → Diagnostic) → Prop where
  | item (cause : Cause) (item : ι) :
      Blames ending fun member => ⟨cause, (pairing.shown member item).span.start⟩
  | fault {diagnostics : Bool → Diagnostic} (broken : ending = .error diagnostics) :
      Blames ending diagnostics

/-- Trees are alike if they are the same once positions are moved. -/
def likeness : Likeness Bool where
  token shown := ∃ item, shown = fun member => pairing.shown member item
  point points := Uniform fun member => pairing.move member (points member)
  expression values := Uniform fun member => (values member).relocate (pairing.move member)
  statement values := Uniform fun member => (values member).relocate (pairing.move member)
  body values := Uniform fun member =>
    Statement.relocateAll (pairing.move member) (values member)
  alternatives values := Uniform fun member => (values member).relocate (pairing.move member)
  start := by
    rintro _ ⟨item, rfl⟩
    exact (pairing.same item).map (·.span.start)
  stop := by
    rintro _ ⟨item, rfl⟩
    exact (pairing.same item).map (·.span.stop)
  atom := by
    rintro _ ⟨item, rfl⟩
    exact (pairing.same item).map Expression.atom
  call := by
    rintro _ ⟨item, rfl⟩
    exact (pairing.same item).map Expression.call
  unary := by
    rintro _ _ ⟨item, rfl⟩ operand
    exact ((pairing.same item).map Expression.unary).app operand
  binary := by
    rintro _ _ _ ⟨item, rfl⟩ left right
    exact (((pairing.same item).map Expression.binary).app left).app right
  nil := .const []
  cons first others := (first.map List.cons).app others
  nothing := .const Alternatives.nothing
  otherwise branch := branch.map Alternatives.otherwise
  elseIf condition branch others start stop :=
    (((condition.map Alternatives.elseIf).app branch).app (start.span stop)).app others
  block body start stop := (body.map Statement.block).app (start.span stop)
  assignment := by
    rintro _ _ _ _ ⟨item, rfl⟩ value start stop
    exact (((pairing.same item).map Statement.assignment).app value).app (start.span stop)
  conditional condition branch others start stop :=
    (((condition.map Statement.conditional).app branch).app others).app (start.span stop)
  loop condition body start stop :=
    ((condition.map Statement.loop).app body).app (start.span stop)
  ends statement := by
    have stops := statement.map (·.span.stop)
    simpa only [Statement.span_relocate, Span.relocate] using stops
  endsOr others stop := by
    have stops := (others.map (·.stop?.getD)).app stop
    simpa only [Alternatives.stop?_relocate, Option.getD_map] using stops

variable {pairing}

theorem whole_relocate {blocks : Bool → Block} (whole : pairing.likeness.Whole blocks) :
    Uniform fun member => (blocks member).relocate (pairing.move member) :=
  (whole.body.map Block.mk).app (whole.start.span whole.stop)

theorem kind_eq (item : ι) (member : Bool) :
    (pairing.shown member item).kind = (pairing.shown true item).kind :=
  ((pairing.same item).map Token.kind).eq member true

theorem value_eq (item : ι) (member : Bool) :
    (pairing.shown member item).value = (pairing.shown true item).value :=
  ((pairing.same item).map Token.value).eq member true

/-- Both readers look at the item that they have in view. -/
theorem peek_item {items : List ι} {item : ι} {readers : Bool → Reader}
    (reads : pairing.Reads items ending readers)
    (seen : ∀ member, current (pairing.endingOf ending member)
      (items.map (pairing.shown member)) = .ok (pairing.shown member item)) :
    ∃ afters, (∀ member, Parse.peek (readers member) =
        .ok (pairing.shown member item) (afters member)) ∧ pairing.Reads items ending afters := by
  obtain ⟨afters, looked⟩ := Classical.axiomOfChoice fun member =>
    Parse.peek_of_current (reads member) (seen member)
  exact ⟨afters, fun member => (looked member).1, fun member => (looked member).2⟩

variable (pairing)

/-- Two readers that are going to see the same items. -/
def lockstep (ending : Ending ι) : Lockstep Bool where
  toLikeness := pairing.likeness
  admits
    | .behind count, readers => ∃ items : List ι, items.length < count ∧
        pairing.Reads items ending readers
    | .before count, readers => ∃ item, ∃ items : List ι, items.length < count ∧
        pairing.Reads (item :: items) ending readers
  moved _ _ := True
  halted _ halts _ := ∃ diagnostics, halts = (fun member => .failed (diagnostics member)) ∧
    pairing.Blames ending diagnostics
  member := true
  real kind := kind ≠ .endOfInput
  known grammar := grammar = .standard
  enough count rounds := ∀ member, count ≤ rounds member

theorem lockstep_lawful (ending : Ending ι) : (pairing.lockstep ending).Lawful where
  genuine real := real
  ruled := by
    rintro _ _ _ rfl ruled
    exact Grammar.genuine_of_operand ruled
  spent enough within member := Nat.le_trans within (Nat.sub_le_of_le_add (enough member))
  stay _ := trivial
  onward _ _ := trivial
  halting := by
    intro _ _ _ _ _ halted
    exact halted
  widens := by
    rintro count more readers ⟨items, fewer, reads⟩ within
    exact ⟨items, Nat.lt_of_lt_of_le fewer within, reads⟩
  relaxes := by
    rintro count readers ⟨item, items, fewer, reads⟩
    exact ⟨item :: items, by rw [List.length_cons]; omega, reads⟩
  blames := by
    rintro count readers _ cause _ ⟨item, rfl⟩ _
    exact ⟨_, rfl, .item cause item⟩
  exhausts := by
    rintro count readers rounds member ⟨items, fewer, _⟩ enough none
    have := enough member
    omega
  peeked := by
    rintro count readers ⟨items, fewer, reads⟩
    cases items with
    | cons item items =>
        obtain ⟨afters, looked, still⟩ := pairing.peek_item reads fun _ => rfl
        have real : (pairing.shown true item).kind ≠ .endOfInput :=
          (reads true).real _ (.head _)
        rw [List.length_cons] at fewer
        exact .done looked trivial ⟨⟨item, rfl⟩, _, _, kind_eq item, value_eq item,
          fun _ => ⟨item, items, by omega, still⟩, absurd real⟩
    | nil =>
        cases ending with
        | ok final =>
            obtain ⟨afters, looked, still⟩ := pairing.peek_item reads fun _ => rfl
            have ends : (pairing.shown true final).kind = .endOfInput := (reads true).final _ rfl
            exact .done looked trivial ⟨⟨final, rfl⟩, _, _, kind_eq final, value_eq final,
              absurd ends, fun _ => ⟨[], fewer, still⟩⟩
        | error faults =>
            obtain ⟨afters, looked⟩ := Classical.axiomOfChoice fun member =>
              Parse.peek_of_fault (reads member) rfl
            exact .halt looked ⟨faults, rfl, .fault rfl⟩
  taken := by
    rintro count readers ⟨item, items, fewer, reads⟩
    obtain ⟨afters, used⟩ := Classical.axiomOfChoice fun member =>
      Parse.advance_of_cons (reads member)
    exact .done (fun member => (used member).1) trivial
      ⟨⟨items, fewer, fun member => (used member).2⟩, item, rfl⟩
  takenUnread := by
    rintro count readers _ kind rule rfl ruled unread _
    exact absurd (Grammar.genuine_of_operator ruled) unread
  asked := by
    rintro (count | count) readers stands
    · obtain ⟨items, _, reads⟩ := stands
      exact ⟨_, rfl, fun member => (reads member).grammar_eq⟩
    · obtain ⟨item, items, _, reads⟩ := stands
      exact ⟨_, rfl, fun member => (reads member).grammar_eq⟩
  counted := by
    rintro count readers ⟨items, fewer, reads⟩
    refine ⟨items.length + 1, fewer, ⟨items, Nat.lt_succ_self _, reads⟩, fun member => ?_⟩
    have enough := (reads member).length_le_unread
    rw [List.length_map] at enough
    exact Nat.succ_le_succ enough

/-- Opening a level changes nothing that is read. -/
theorem lockstep_opens : (pairing.lockstep ending).Opens (pairing.lockstep ending) where
  alike := rfl
  enters := by
    rintro (count | count) readers stands
    · obtain ⟨items, fewer, reads⟩ := stands
      exact ⟨items, fewer, fun member => (reads member).of_same rfl rfl rfl⟩
    · obtain ⟨item, items, fewer, reads⟩ := stands
      exact ⟨item, items, fewer, fun member => (reads member).of_same rfl rfl rfl⟩
  exits := by
    rintro count afters ⟨items, fewer, reads⟩
    exact ⟨items, fewer, fun member => (reads member).of_same rfl rfl rfl⟩
  moves _ := trivial
  halts halted := halted

/-- However many levels may be opened, statements and expressions run in step. -/
theorem within_inStep (ending : Ending ι) (limit levels bound : Nat) :
    Productions.Obey (pairing.lockstep_lawful ending).discipline bound
      fun _ => Productions.within limit levels :=
  Lockstep.within_obey (fun _ => pairing.lockstep_lawful ending) (fun _ => pairing.lockstep_opens)
    limit bound levels

variable {pairing}

/-- Two programs, whatever is made of them, both fail if one of them does. -/
theorem program_fails {α : Type} {limit levels rounds rounds' : Nat} {items : List ι}
    {reader reader' after : Reader} {diagnostic : Diagnostic}
    {close : List Statement → Token → α} (close' : List Statement → Token → α)
    (reads : pairing.Reads items ending fun member => bif member then reader else reader')
    (enough : items.length < rounds) (enough' : items.length < rounds')
    (wrong : (do
        let body ← Parse.program (.within limit levels) rounds
        return close body (← Parse.peek)) reader = .error (.failed diagnostic) after) :
    ∃ diagnostics last, pairing.Blames ending diagnostics ∧ diagnostics true = diagnostic ∧
      (do
        let body ← Parse.program (.within limit levels) rounds'
        return close' body (← Parse.peek)) reader' =
          .error (.failed (diagnostics false)) last := by
  have bounded : ∀ member, items.length + 1 ≤ bif member then rounds else rounds' := fun
    | true => enough
    | false => enough'
  have inStep := @Productions.Obey.programEnd _ _ _ _ _
    (pairing.within_inStep ending limit levels (items.length + 1)) α (fun _ => True)
    (fun member => bif member then rounds else rounds')
    (fun member => bif member then close else close') bounded (fun _ _ => trivial) (Nat.le_refl _)
  cases inStep _ ⟨items, Nat.lt_succ_self _, reads⟩ with
  | done ran _ _ => cases wrong.symm.trans (ran true)
  | halt ran halting =>
      obtain ⟨diagnostics, rfl, blames⟩ := halting
      cases wrong.symm.trans (ran true)
      exact ⟨diagnostics, _, blames, rfl, ran false⟩

end Pairing

end Scriptlet
