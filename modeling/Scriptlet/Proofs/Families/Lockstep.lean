import Scriptlet.Proofs.Families.Productions
import Scriptlet.Proofs.Reading.Stream

/-!
# Families that run in lockstep

Most relations between parsers are of one kind: each parser has its reader, the readers stand to one
another in some way, and the parsers either all give a result or all halt.  `Lockstep` is such a
relation, and `Lockstep.Lawful` asks what it says of single steps, that is of looking at a token and
of using one up.  It is a discipline then (`Lawful.discipline`), so that it holds of all
productions (`Lockstep.within_obey`).
-/

namespace Scriptlet

/-- The reader one level further in. -/
def Reader.entered (reader : Reader) : Reader :=
  { reader with depth := reader.depth + 1, deepest := max reader.deepest (reader.depth + 1) }

/-- The reader one level further out. -/
def Reader.exited (reader : Reader) : Reader := { reader with depth := reader.depth - 1 }

section Opened

variable {α : Type} {production : Parse α} {reader after : Reader}

theorem Parse.opened_of_ok {value : α} (ran : production reader.entered = .ok value after) :
    Parse.opened production reader = .ok value after.exited := by
  rw [Reader.entered] at ran
  rw [Parse.opened, ran]
  rfl

theorem Parse.opened_of_error {halt : Halt}
    (ran : production reader.entered = .error halt after) :
    Parse.opened production reader = .error halt after.exited := by
  rw [Reader.entered] at ran
  rw [Parse.opened, ran]
  rfl

end Opened

section Whole

variable {source : String} {file : Option String} {after : Reader}

theorem parse_of_ok {root : Block}
    (ran : Parse.programBlock (.within Parse.nestingLimit Parse.nestingLimit)
      (Reader.ofSource source file) = .ok root after) : parse source file = .ok root := by
  have started : Parse.start Parse.nestingLimit Parse.programBlock
      (Reader.ofSource source file) = .ok root after := ran
  rw [parse, parseWithin, started]

theorem parse_of_error {halt : Halt}
    (ran : Parse.programBlock (.within Parse.nestingLimit Parse.nestingLimit)
      (Reader.ofSource source file) = .error halt after) : parse source file = .error halt := by
  have started : Parse.start Parse.nestingLimit Parse.programBlock
      (Reader.ofSource source file) = .error halt after := ran
  rw [parse, parseWithin, started]

end Whole

variable {ι α β : Type}

/-- Runs that began with these readers all gave results, which are as required, or all halted. -/
inductive Together (moved : (ι → Reader) → (ι → Reader) → Prop)
    (halted : (ι → Reader) → (ι → Halt) → (ι → Reader) → Prop) (readers : ι → Reader)
    (required : (ι → α) → (ι → Reader) → Prop) (runs : ι → EStateM.Result Halt Reader α) :
    Prop where
  | done {values : ι → α} {afters : ι → Reader}
      (ran : ∀ member, runs member = .ok (values member) (afters member))
      (moves : moved readers afters) (meets : required values afters) :
      Together moved halted readers required runs
  | halt {halts : ι → Halt} {afters : ι → Reader}
      (ran : ∀ member, runs member = .error (halts member) (afters member))
      (halting : halted readers halts afters) : Together moved halted readers required runs

theorem Together.mono {moved : (ι → Reader) → (ι → Reader) → Prop}
    {halted : (ι → Reader) → (ι → Halt) → (ι → Reader) → Prop} {readers : ι → Reader}
    {required weaker : (ι → α) → (ι → Reader) → Prop} {runs : ι → EStateM.Result Halt Reader α}
    (together : Together moved halted readers required runs)
    (implies : ∀ values afters, required values afters → weaker values afters) :
    Together moved halted readers weaker runs := by
  cases together with
  | halt ran halting => exact .halt ran halting
  | done ran moves meets => exact .done ran moves (implies _ _ meets)

/-- A relation between readers.  They stand as it `admits`, and from where they began they have
`moved` on or `halted`. -/
structure Lockstep (ι : Type) extends Likeness ι where
  admits : Stage → (ι → Reader) → Prop
  moved : (ι → Reader) → (ι → Reader) → Prop
  halted : (ι → Reader) → (ι → Halt) → (ι → Reader) → Prop
  member : ι
  real : TokenKind → Prop
  known : Grammar → Prop
  enough : Nat → (ι → Nat) → Prop

namespace Lockstep

/-- The members run together from these readers, and give results as required. -/
abbrev Runs (lockstep : Lockstep ι) (readers : ι → Reader)
    (required : (ι → α) → (ι → Reader) → Prop) (runs : ι → EStateM.Result Halt Reader α) : Prop :=
  Together lockstep.moved lockstep.halted readers required runs

/-- What single steps keep of the relation. -/
structure Lawful (lockstep : Lockstep ι) : Prop where
  genuine : ∀ {kind}, kind ≠ .endOfInput → lockstep.real kind
  ruled : ∀ {grammar kind rule}, lockstep.known grammar → grammar.operands kind = some rule →
    lockstep.real kind
  spent : ∀ {count less fewer}, lockstep.enough count (fun member => fewer member + 1) →
    less ≤ count - 1 → lockstep.enough less fewer
  stay : ∀ readers, lockstep.moved readers readers
  onward : ∀ {readers between afters}, lockstep.moved readers between →
    lockstep.moved between afters → lockstep.moved readers afters
  halting : ∀ {readers between halts afters}, lockstep.moved readers between →
    lockstep.halted between halts afters → lockstep.halted readers halts afters
  widens : ∀ {count more readers}, lockstep.admits (.behind count) readers → count ≤ more →
    lockstep.admits (.behind more) readers
  relaxes : ∀ {count readers}, lockstep.admits (.before (count - 1)) readers →
    lockstep.admits (.behind count) readers
  blames : ∀ {count readers shown cause}, lockstep.admits (.behind count) readers →
    lockstep.token shown → cause.phase = .syntactic →
    lockstep.halted readers (fun member => .failed ⟨cause, (shown member).span.start⟩) readers
  exhausts : ∀ {count readers rounds} {member : ι}, lockstep.admits (.behind count) readers →
    lockstep.enough count rounds → rounds member = 0 →
    (∀ other, rounds other = 0) ∧ lockstep.halted readers (fun _ => .endless) readers
  peeked : ∀ {count readers}, lockstep.admits (.behind count) readers →
    lockstep.Runs readers
      (fun shown afters => lockstep.token shown ∧
        ∃ kind text, (∀ member, (shown member).kind = kind) ∧
          (∀ member, (shown member).value = text) ∧
          (lockstep.real kind → lockstep.admits (.before (count - 1)) afters) ∧
          (¬ lockstep.real kind → lockstep.admits (.behind count) afters))
      fun member => Parse.peek (readers member)
  taken : ∀ {count readers}, lockstep.admits (.before count) readers →
    lockstep.Runs readers
      (fun shown afters => lockstep.admits (.behind count) afters ∧ lockstep.token shown)
      fun member => Parse.advance (readers member)
  takenUnread : ∀ {count readers grammar kind rule}, lockstep.known grammar →
    grammar.operators kind = some rule → ¬ lockstep.real kind →
    lockstep.admits (.behind count) readers →
    lockstep.Runs readers
      (fun shown afters => lockstep.admits (.behind count) afters ∧ lockstep.token shown)
      fun member => Parse.advance (readers member)
  asked : ∀ {stage readers}, lockstep.admits stage readers →
    ∃ grammar, lockstep.known grammar ∧ ∀ member, (readers member).grammar = grammar
  counted : ∀ {count readers}, lockstep.admits (.behind count) readers →
    ∃ fewer, fewer ≤ count ∧ lockstep.admits (.behind fewer) readers ∧
      lockstep.enough fewer fun member => (readers member).unread + 1

/-- From readers that stand as admitted, the family runs together, and its results are as
promised. -/
def Holds (lockstep : Lockstep ι) (stage : Stage) (rest : Nat) (promised : (ι → α) → Prop)
    (family : ι → Parse α) : Prop :=
  ∀ readers, lockstep.admits stage readers → lockstep.Runs readers
    (fun values afters => lockstep.admits (.behind rest) afters ∧ promised values)
    fun member => family member (readers member)

namespace Lawful

variable {lockstep : Lockstep ι} {stage : Stage} {count rest : Nat}
  {promised : (ι → α) → Prop} {further : (ι → β) → Prop} {readers : ι → Reader}
  (lawful : lockstep.Lawful)
include lawful

/-- What runs behind runs that have ended. -/
theorem behind {required : (ι → α) → (ι → Reader) → Prop}
    {further : (ι → β) → (ι → Reader) → Prop} {first : ι → Parse α} {second : ι → α → Parse β}
    (one : lockstep.Runs readers required fun member => first member (readers member))
    (two : ∀ values afters, required values afters →
      lockstep.Runs afters further fun member => second member (values member) (afters member)) :
    lockstep.Runs readers further fun member =>
      (first member >>= second member) (readers member) := by
  cases one with
  | halt ran halting => exact .halt (fun member => Parse.bind_of_error (ran member)) halting
  | done ran moves meets =>
      cases two _ _ meets with
      | halt again halting =>
          refine .halt (fun member => ?_) (lawful.halting moves halting)
          rw [Parse.bind_of_ok (ran member)]
          exact again member
      | done again onward ends =>
          refine .done (fun member => ?_) (lawful.onward moves onward) ends
          rw [Parse.bind_of_ok (ran member)]
          exact again member

theorem done {values : ι → α} (promise : promised values) :
    lockstep.Holds (.behind count) count promised fun member => pure (values member) :=
  fun readers stands => .done (fun _ => rfl) (lawful.stay readers) ⟨stands, promise⟩

theorem bind {between : Nat} {first : ι → Parse α} {second : ι → α → Parse β}
    (one : lockstep.Holds stage between promised first)
    (two : ∀ values, promised values → lockstep.Holds (.behind between) rest further
      fun member => second member (values member)) :
    lockstep.Holds stage rest further fun member => first member >>= second member :=
  fun readers stands => lawful.behind (one readers stands)
    fun values afters ends => two values ends.2 afters ends.1

theorem exhausted {family : ι → Parse α} {rounds : ι → Nat} {member : ι}
    (enough : lockstep.enough count rounds) (none : rounds member = 0)
    (endless : ∀ other, rounds other = 0 → family other = throw .endless) :
    lockstep.Holds (.behind count) rest promised family := by
  intro readers stands
  obtain ⟨all, halting⟩ := lawful.exhausts stands enough none
  refine .halt (fun other => ?_) halting
  rw [endless other (all other)]
  rfl

theorem widen {family : ι → Parse α} {more : Nat}
    (holds : lockstep.Holds stage rest promised family) (within : rest ≤ more) :
    lockstep.Holds stage more promised family :=
  fun readers stands => (holds readers stands).mono
    fun _ _ ends => ⟨lawful.widens ends.1 within, ends.2⟩

theorem look {next : ι → Token → Parse α}
    (real : ∀ shown kind text, lockstep.token shown → (∀ member, (shown member).kind = kind) →
      (∀ member, (shown member).value = text) → lockstep.real kind →
      lockstep.Holds (.before (count - 1)) rest promised fun member => next member (shown member))
    (unread : ∀ shown kind text, lockstep.token shown →
      (∀ member, (shown member).kind = kind) → (∀ member, (shown member).value = text) →
      ¬ lockstep.real kind →
      lockstep.Holds (.behind count) rest promised fun member => next member (shown member)) :
    lockstep.Holds (.behind count) rest promised fun member => Parse.peek >>= next member := by
  intro readers stands
  apply lawful.behind (lawful.peeked stands)
  rintro shown afters ⟨seen, kind, text, kinds, texts, before, behind⟩
  by_cases counts : lockstep.real kind
  · exact real shown kind text seen kinds texts counts afters (before counts)
  · exact unread shown kind text seen kinds texts counts afters (behind counts)

/-- What holds of single steps holds of productions. -/
def discipline : Discipline ι where
  toLikeness := lockstep.toLikeness
  holds stage rest _ promised family := lockstep.Holds stage rest promised family
  member := lockstep.member
  real := lockstep.real
  known := lockstep.known
  stands readers := ∃ stage, lockstep.admits stage readers
  enough := lockstep.enough
  genuine := lawful.genuine
  ruled := lawful.ruled
  spent := lawful.spent
  done := lawful.done
  blame seen syntactic := fun _ stands =>
    .halt (fun _ => rfl) (lawful.blames stands seen syntactic)
  exhausted := lawful.exhausted
  bind := lawful.bind
  widen := lawful.widen
  relax holds := fun readers stands => holds readers (lawful.relaxes stands)
  look := lawful.look
  take := fun _ stands => lawful.taken stands
  takeUnread known ruled unread := fun _ stands => lawful.takenUnread known ruled unread stands
  ask further := fun readers stands =>
    let ⟨grammar, known, same⟩ := lawful.asked stands
    further readers grammar ⟨_, stands⟩ known same readers stands
  count further := fun readers stands =>
    let ⟨fewer, within, still, enough⟩ := lawful.counted stands
    further fewer _ within enough readers still

end Lawful

/-! ## Levels -/

/-- Readers that stand as `outer` says stand as `inner` says one level further in, and the other way
round when they come out. -/
structure Opens (outer inner : Lockstep ι) : Prop where
  alike : outer.toLikeness = inner.toLikeness
  enters : ∀ {stage readers}, outer.admits stage readers →
    inner.admits stage fun member => (readers member).entered
  exits : ∀ {count afters}, inner.admits (.behind count) afters →
    outer.admits (.behind count) fun member => (afters member).exited
  moves : ∀ {readers afters}, inner.moved (fun member => (readers member).entered) afters →
    outer.moved readers fun member => (afters member).exited
  halts : ∀ {readers halts afters},
    inner.halted (fun member => (readers member).entered) halts afters →
    outer.halted readers halts fun member => (afters member).exited

theorem Opens.opened {outer inner : Lockstep ι} {stage : Stage} {rest : Nat}
    {promised : (ι → α) → Prop} (opens : outer.Opens inner)
    {family : ι → Parse α} (holds : inner.Holds stage rest promised family) :
    outer.Holds stage rest promised fun member => Parse.opened (family member) := by
  intro readers stands
  cases holds _ (opens.enters stands) with
  | halt ran halting =>
      exact .halt (fun member => Parse.opened_of_error (ran member)) (opens.halts halting)
  | done ran moves ends =>
      exact .done (fun member => Parse.opened_of_ok (ran member)) (opens.moves moves)
        ⟨opens.exits ends.1, ends.2⟩

/-- A relation that holds of what single steps do, level by level, holds of statements and
expressions, however many levels may be opened. -/
theorem within_obey {locksteps : Nat → Lockstep ι} (lawful : ∀ levels, (locksteps levels).Lawful)
    (opens : ∀ levels, (locksteps (levels + 1)).Opens (locksteps levels))
    (limit bound levels : Nat) :
    Productions.Obey (lawful levels).discipline bound fun _ => Productions.within limit levels := by
  induction levels with
  | zero => exact ⟨fun _ => Discipline.tooDeep limit, fun _ _ => Discipline.tooDeep limit⟩
  | succ levels ih =>
      -- Both levels call the same trees alike.
      have alike := (opens levels).alike
      constructor
      · intro count within
        have body := (opens levels).opened (ih.statementBody (Nat.le_succ_of_le within))
        exact (congrArg Likeness.statement alike) ▸ body
      · intro count power within
        have body := (opens levels).opened (ih.expressionBody power (Nat.le_succ_of_le within))
        exact (congrArg Likeness.expression alike) ▸ body

end Lockstep

end Scriptlet
