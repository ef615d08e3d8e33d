import Scriptlet.Proofs.Families.Lockstep

/-!
# Nesting without a limit

Productions that do not count how many of them are open are those that satisfy the recursion of
statements and expressions with nothing in its way (`Productions.Unchecked`).  On a reader that
knows the language there is one way to satisfy it, and `Productions.unlimited` is one: every
production uses up a token before it starts an inner one, so as many levels as there is text are
never used up.
-/

namespace Scriptlet

namespace Productions

/-- Productions of which `levels` may be opened inside one another.  For any one further in,
`bottom` is asked. -/
def raised (bottom : Productions) : (levels : Nat) → Productions
  | 0 => bottom
  | levels + 1 =>
      ⟨Parse.opened (Parse.statementBody (bottom.raised levels)),
        fun power => Parse.opened (Parse.expressionBody (bottom.raised levels) power)⟩

/-- Productions that open one another however many are open. -/
structure Unchecked (free : Productions) : Prop where
  statement : ∀ reader : Reader, reader.grammar = .standard →
    free.statement reader = Parse.opened (Parse.statementBody free) reader
  expression : ∀ power, ∀ reader : Reader, reader.grammar = .standard →
    free.expression power reader = Parse.opened (Parse.expressionBody free power) reader

/-- Productions that are never run. -/
def idle : Productions := ⟨throw .endless, fun _ => throw .endless⟩

/-- Productions with one level for every character that is left, and one more. -/
def unlimited : Productions where
  statement reader := (idle.raised (reader.unread + 1)).statement reader
  expression power reader := (idle.raised (reader.unread + 1)).expression power reader

end Productions

/-- A token of the source that is in view counts as one more to read. -/
theorem Reader.unread_of_seen {reader : Reader} {token : Token}
    (seen : reader.lookahead = some token) (real : token.kind ≠ .endOfInput) :
    reader.unread = reader.cursor.rest.length + 1 := by
  simp [unread, seen, real]

/-- The reader stands as the stage says. -/
def Stage.Fits (reader : Reader) : Stage → Prop
  | .behind count => reader.unread < count
  | .before count => ∃ token, reader.lookahead = some token ∧ token.kind ≠ .endOfInput ∧
      reader.cursor.rest.length < count

namespace Parse

variable {ι α : Type} {count rest : Nat} {reader : Reader}

/-- One reader that knows the language, put to all members of a family.  They do the same, and no
run forgets how deep reading has been. -/
def steady (ι : Type) [Inhabited ι] : Lockstep ι where
  toLikeness := .same ι
  admits stage readers := ∃ reader, readers = (fun _ => reader) ∧ reader.grammar = .standard ∧
    stage.Fits reader
  moved readers afters := ∀ member, (readers member).deepest ≤ (afters member).deepest
  halted readers halts afters := Uniform halts ∧
    (∃ after, afters = (fun _ => after) ∧ after.grammar = .standard) ∧
    ∀ member, (readers member).deepest ≤ (afters member).deepest
  member := default
  real kind := kind ≠ .endOfInput
  known grammar := grammar = .standard
  enough _ rounds := Uniform rounds

theorem steady_lawful (ι : Type) [Inhabited ι] : (steady ι).Lawful where
  genuine real := real
  ruled := by
    rintro _ _ _ rfl ruled
    exact Grammar.genuine_of_operand ruled
  spent enough _ := enough.pred
  stay _ _ := Nat.le_refl _
  onward first second member := Nat.le_trans (first member) (second member)
  halting first second := ⟨second.1, second.2.1, fun member =>
    Nat.le_trans (first member) (second.2.2 member)⟩
  widens := by
    rintro count more _ ⟨reader, rfl, knows, fits⟩ within
    exact ⟨reader, rfl, knows, Nat.lt_of_lt_of_le fits within⟩
  relaxes := by
    rintro count _ ⟨reader, rfl, knows, token, seen, real, behind⟩
    have left := Reader.unread_of_seen seen real
    exact ⟨reader, rfl, knows, by rw [Stage.Fits]; omega⟩
  blames := by
    rintro count _ _ cause ⟨reader, rfl, knows, _⟩ ⟨token, rfl⟩ _
    exact ⟨⟨_, rfl⟩, ⟨reader, rfl, knows⟩, fun _ => Nat.le_refl _⟩
  exhausts := by
    rintro count _ _ member ⟨reader, rfl, knows, _⟩ ⟨rounds, rfl⟩ none
    exact ⟨fun _ => none, ⟨_, rfl⟩, ⟨reader, rfl, knows⟩, fun _ => Nat.le_refl _⟩
  peeked := by
    rintro count _ ⟨reader, rfl, knows, fits⟩
    have moved := moved_peek reader
    cases looked : peek reader with
    | error halt after =>
        rw [looked] at moved
        exact .halt (fun _ => looked) ⟨⟨halt, rfl⟩, ⟨after, rfl, moved.grammar.trans knows⟩,
          fun _ => Nat.le_of_eq moved.deepest.symm⟩
    | ok token after =>
        rw [looked] at moved
        obtain ⟨seen, kept⟩ := peek_keeps looked
        have within : after.unread < count := Nat.lt_of_le_of_lt kept fits
        refine .done (fun _ => looked) (fun _ => Nat.le_of_eq moved.deepest.symm)
          ⟨⟨token, rfl⟩, token.kind, token.value, fun _ => rfl, fun _ => rfl, fun real => ?_,
            fun _ => ⟨after, rfl, moved.grammar.trans knows, within⟩⟩
        have left := Reader.unread_of_seen seen real
        exact ⟨after, rfl, moved.grammar.trans knows, token, seen, real, by omega⟩
  taken := by
    rintro count _ ⟨reader, rfl, knows, token, seen, real, behind⟩
    have used : advance reader = .ok token { reader with lookahead := none } := by
      rw [advance, seen]
    refine .done (fun _ => used) (fun _ => Nat.le_refl _) ⟨⟨_, rfl, knows, ?_⟩, token, rfl⟩
    simpa [Stage.Fits, Reader.unread] using behind
  takenUnread := by
    rintro count _ _ kind rule rfl ruled unread _
    exact absurd (Grammar.genuine_of_operator ruled) unread
  asked := by
    rintro stage _ ⟨reader, rfl, knows, _⟩
    exact ⟨_, knows, fun _ => rfl⟩
  counted := by
    rintro count _ ⟨reader, rfl, knows, fits⟩
    exact ⟨count, Nat.le_refl _, ⟨reader, rfl, knows, fits⟩, _, rfl⟩

variable [Inhabited ι]

/-- Opening a level changes nothing that a family depends on. -/
theorem steady_opens : (steady ι).Opens (steady ι) where
  alike := rfl
  enters := by
    rintro stage _ ⟨reader, rfl, knows, fits⟩
    refine ⟨reader.entered, rfl, knows, ?_⟩
    cases stage <;> exact fits
  exits := by
    rintro count _ ⟨after, rfl, knows, fits⟩
    exact ⟨after.exited, rfl, knows, fits⟩
  moves moved member := Nat.le_trans (Nat.le_max_left _ _) (moved member)
  halts := by
    rintro readers halts _ ⟨same, ⟨after, rfl, knows⟩, moved⟩
    exact ⟨same, ⟨after.exited, rfl, knows⟩, fun member =>
      Nat.le_trans (Nat.le_max_left _ _) (moved member)⟩

/-- Members of a family that is steady do the same. -/
theorem steady_agree {family : ι → Parse α}
    (holds : (steady ι).Holds (.behind count) rest Uniform family)
    (knows : reader.grammar = .standard) (fits : reader.unread < count) (one other : ι) :
    family one reader = family other reader := by
  cases holds (fun _ => reader) ⟨reader, rfl, knows, fits⟩ with
  | halt ran halting =>
      obtain ⟨⟨halt, rfl⟩, ⟨after, rfl, _⟩, _⟩ := halting
      exact (ran one).trans (ran other).symm
  | done ran moves ends =>
      obtain ⟨⟨after, rfl, _⟩, value, rfl⟩ := ends
      exact (ran one).trans (ran other).symm

/-- Steadiness is about readers that know the language and have little left to read. -/
theorem steady_congr {promised : (ι → α) → Prop} {family other : ι → Parse α}
    (holds : (steady ι).Holds (.behind count) rest promised family)
    (same : ∀ member, ∀ reader : Reader, reader.grammar = .standard → reader.unread < count →
      other member reader = family member reader) :
    (steady ι).Holds (.behind count) rest promised other := by
  rintro _ ⟨reader, rfl, knows, fits⟩
  simp only [same _ reader knows fits]
  exact holds _ ⟨reader, rfl, knows, fits⟩

end Parse

namespace Productions

open Parse

variable {ι : Type} [Inhabited ι] {bound : Nat}

/-- The productions of the family agree and grow while less than `bound` is left to read. -/
abbrev AreSteady (bound : Nat) (family : ι → Productions) : Prop :=
  Obey (steady_lawful ι).discipline bound family

/-- Productions made of a steady family agree while one more token is left. -/
theorem AreSteady.step {family inner : ι → Productions} (alike : AreSteady bound inner)
    (statement : ∀ member, ∀ reader : Reader, reader.grammar = .standard →
      (family member).statement reader = opened (statementBody (inner member)) reader)
    (expression : ∀ member power, ∀ reader : Reader, reader.grammar = .standard →
      (family member).expression power reader =
        opened (expressionBody (inner member) power) reader) :
    AreSteady (bound + 1) family where
  statement within := steady_congr (steady_opens.opened (alike.statementBody within))
    fun member reader knows _ => statement member reader knows
  expression power within :=
    steady_congr (steady_opens.opened (alike.expressionBody power within))
      fun member reader knows _ => expression member power reader knows

/-- Nothing is ever less than nothing left to read. -/
theorem areSteady_zero (family : ι → Productions) : AreSteady 0 family where
  statement within := by
    rintro _ ⟨reader, rfl, _, fits⟩
    exact absurd (Nat.lt_of_lt_of_le fits within) (Nat.not_lt_zero _)
  expression power within := by
    rintro _ ⟨reader, rfl, _, fits⟩
    exact absurd (Nat.lt_of_lt_of_le fits within) (Nat.not_lt_zero _)

/-- With levels enough for what is left to read it makes no difference how many there are. -/
theorem raised_areSteady (bottom : Productions) (bound : Nat) (levels : ι → Nat)
    (enough : ∀ member, bound ≤ levels member) :
    AreSteady bound fun member => bottom.raised (levels member) := by
  induction bound generalizing levels with
  | zero => exact areSteady_zero _
  | succ bound ih =>
      have inner := ih (fun member => levels member - 1) fun member =>
        Nat.le_sub_one_of_lt (enough member)
      have unfold : ∀ member, bottom.raised (levels member) =
          bottom.raised (levels member - 1 + 1) := by
        intro member
        rw [Nat.sub_add_cancel (Nat.le_trans (Nat.le_add_left 1 bound) (enough member))]
      apply inner.step
      · intro member reader _
        rw [unfold]
        rfl
      · intro member power reader _
        rw [unfold]
        rfl

/-- Unchecked productions grow, however much is left to read. -/
theorem Unchecked.areSteady {free : Productions} (unchecked : free.Unchecked) (bound : Nat) :
    AreSteady bound fun _ : Unit => free := by
  induction bound with
  | zero => exact areSteady_zero _
  | succ bound ih =>
      exact ih.step (fun _ => unchecked.statement) fun _ => unchecked.expression

/-- The levels of `unlimited` are as good as any larger number of them. -/
theorem unlimited_areSteady (bound : Nat) :
    AreSteady bound fun free : Bool => if free then unlimited else idle.raised bound := by
  have constant := raised_areSteady idle bound (fun _ : Bool => bound) fun _ => Nat.le_refl _
  have agree : ∀ reader : Reader, reader.unread < bound →
      AreSteady (reader.unread + 1) fun free : Bool =>
        idle.raised (if free then reader.unread + 1 else bound) := by
    intro reader fits
    apply raised_areSteady
    intro free
    cases free
    · exact fits
    · exact Nat.le_refl _
  constructor
  · intro count within
    apply steady_congr (constant.statement within)
    intro free reader knows fits
    have same := (agree reader (Nat.lt_of_lt_of_le fits within)).statement (Nat.le_refl _)
    cases free
    · rfl
    · exact steady_agree same knows (Nat.lt_succ_self _) true false
  · intro count power within
    apply steady_congr (constant.expression power within)
    intro free reader knows fits
    have same := (agree reader (Nat.lt_of_lt_of_le fits within)).expression power (Nat.le_refl _)
    cases free
    · rfl
    · exact steady_agree same knows (Nat.lt_succ_self _) true false

/-- There are unchecked productions. -/
theorem unlimited_unchecked : unlimited.Unchecked := by
  constructor
  · intro reader knows
    have inner := unlimited_areSteady reader.unread
    have outer := steady_opens.opened (inner.statementBody (Nat.le_refl _))
    exact steady_agree outer knows (Nat.lt_succ_self _) false true
  · intro power reader knows
    have inner := unlimited_areSteady reader.unread
    have outer := steady_opens.opened (inner.expressionBody power (Nat.le_refl _))
    exact steady_agree outer knows (Nat.lt_succ_self _) false true

end Productions

end Scriptlet
