import Scriptlet.Reader.Program

/-!
# Families of productions

A production is written in terms of inner productions, so whatever relates the inner productions of
several parsers should relate the productions made of them.  `Discipline` collects what is asked of
a relation for this to be so: one clause for each way in which productions are put together, and one
for each way in which trees are (`Likeness`).  The bodies of statements and of expressions, and the
loops, are then taken apart here once and for all: inner productions that obey a discipline make
bodies that obey it (`Productions.Obey`).  Only what compares a production with a definition of its
own, such as a derivation, has to take it apart again.

A relation may depend on how much is left to read (`Stage`).  A statement and an expression use up
a token of the source, which is what an argument by the length of the input needs, and what keeps
loops from running out of rounds.
-/

namespace Scriptlet

/-! ## What trees have in common -/

/-- What the members of a family have in common in the tokens and positions that they see and in the
trees that they make of them.  Trees are alike if they are made of what is alike. -/
structure Likeness (ι : Type) where
  token : (ι → Token) → Prop
  point : (ι → Position) → Prop
  expression : (ι → Expression) → Prop
  statement : (ι → Statement) → Prop
  body : (ι → List Statement) → Prop
  alternatives : (ι → Alternatives) → Prop
  start : ∀ {shown}, token shown → point fun member => (shown member).span.start
  stop : ∀ {shown}, token shown → point fun member => (shown member).span.stop
  atom : ∀ {shown}, token shown → expression fun member => .atom (shown member)
  call : ∀ {shown}, token shown → expression fun member => .call (shown member)
  unary : ∀ {shown operands}, token shown → expression operands →
    expression fun member => .unary (shown member) (operands member)
  binary : ∀ {shown lefts rights}, token shown → expression lefts → expression rights →
    expression fun member => .binary (shown member) (lefts member) (rights member)
  nil : body fun _ => []
  cons : ∀ {firsts others}, statement firsts → body others →
    body fun member => firsts member :: others member
  nothing : alternatives fun _ => .nothing
  otherwise : ∀ {branches}, statement branches →
    alternatives fun member => .otherwise (branches member)
  elseIf : ∀ {conditions branches others starts stops}, expression conditions →
    statement branches → alternatives others → point starts → point stops →
    alternatives fun member => .elseIf (conditions member) (branches member)
      ⟨starts member, stops member⟩ (others member)
  block : ∀ {bodies starts stops}, body bodies → point starts → point stops →
    statement fun member => .block (bodies member) ⟨starts member, stops member⟩
  assignment : ∀ {targets values starts stops}, token targets → expression values →
    point starts → point stops → statement fun member => .assignment (targets member)
      (values member) ⟨starts member, stops member⟩
  conditional : ∀ {conditions branches others starts stops}, expression conditions →
    statement branches → alternatives others → point starts → point stops →
    statement fun member => .conditional (conditions member) (branches member) (others member)
      ⟨starts member, stops member⟩
  loop : ∀ {conditions bodies starts stops}, expression conditions → statement bodies →
    point starts → point stops → statement fun member => .loop (conditions member)
      (bodies member) ⟨starts member, stops member⟩
  /-- Where statements end. -/
  ends : ∀ {values}, statement values → point fun member => (values member).span.stop
  /-- Where conditionals end. -/
  endsOr : ∀ {others stops}, alternatives others → point stops →
    point fun member => (others member).stop?.getD (stops member)

/-- Whole programs are alike if their statements and their spans are. -/
structure Likeness.Whole {ι : Type} (likeness : Likeness ι) (blocks : ι → Block) : Prop where
  body : likeness.body fun member => (blocks member).body
  start : likeness.point fun member => (blocks member).span.start
  stop : likeness.point fun member => (blocks member).span.stop

/-- All members have the same. -/
def Uniform {ι α : Type} (values : ι → α) : Prop := ∃ value, values = fun _ => value

namespace Uniform

variable {ι α β : Type}

theorem const (value : α) : Uniform fun _ : ι => value := ⟨value, rfl⟩

theorem eq {values : ι → α} (same : Uniform values) (one other : ι) :
    values one = values other := by
  obtain ⟨value, rfl⟩ := same
  rfl

theorem map (function : α → β) {values : ι → α} (same : Uniform values) :
    Uniform fun member => function (values member) := by
  obtain ⟨value, rfl⟩ := same
  exact const _

theorem app {functions : ι → α → β} {values : ι → α} (one : Uniform functions)
    (other : Uniform values) : Uniform fun member => functions member (values member) := by
  obtain ⟨function, rfl⟩ := one
  exact other.map function

theorem pred {fewer : ι → Nat} (more : Uniform fun member => fewer member + 1) :
    Uniform fewer := more.map (· - 1)

theorem span {starts stops : ι → Position} (start : Uniform starts) (stop : Uniform stops) :
    Uniform fun member => Span.mk (starts member) (stops member) := (start.map Span.mk).app stop

end Uniform

/-- The members see the same and make the same of it. -/
def Likeness.same (ι : Type) : Likeness ι where
  token := Uniform
  point := Uniform
  expression := Uniform
  statement := Uniform
  body := Uniform
  alternatives := Uniform
  start seen := seen.map (·.span.start)
  stop seen := seen.map (·.span.stop)
  atom seen := seen.map Expression.atom
  call seen := seen.map Expression.call
  unary seen operand := (seen.map Expression.unary).app operand
  binary seen left right := ((seen.map Expression.binary).app left).app right
  nil := .const []
  cons first others := (first.map List.cons).app others
  nothing := .const Alternatives.nothing
  otherwise branch := branch.map Alternatives.otherwise
  elseIf condition branch others start stop :=
    (((condition.map Alternatives.elseIf).app branch).app (start.span stop)).app others
  block body start stop := (body.map Statement.block).app (start.span stop)
  assignment target value start stop :=
    ((target.map Statement.assignment).app value).app (start.span stop)
  conditional condition branch others start stop :=
    (((condition.map Statement.conditional).app branch).app others).app (start.span stop)
  loop condition body start stop :=
    ((condition.map Statement.loop).app body).app (start.span stop)
  ends statement := statement.map (·.span.stop)
  endsOr others stop := (others.map (·.stop?.getD)).app stop

theorem Likeness.Whole.uniform {ι : Type} {blocks : ι → Block}
    (whole : (Likeness.same ι).Whole blocks) : Uniform blocks := by
  obtain ⟨⟨body, bodies⟩, ⟨start, starts⟩, ⟨stop, stops⟩⟩ := whole
  refine ⟨⟨body, ⟨start, stop⟩⟩, funext fun member => ?_⟩
  have sameBody : (blocks member).body = body := congrFun bodies member
  have sameStart : (blocks member).span.start = start := congrFun starts member
  have sameStop : (blocks member).span.stop = stop := congrFun stops member
  rw [← sameBody, ← sameStart, ← sameStop]

/-! ## Disciplines -/

/-- How readers stand that productions go on from. -/
inductive Stage where
  /-- Less than `count` is left to read. -/
  | behind (count : Nat)
  /-- A token is in view, and less than `count` is left behind it. -/
  | before (count : Nat)

/-- A relation between the members of a family of productions that is handed on from inner
productions to the productions made of them.  `holds stage rest promised family` says that from
readers at the stage the members do what is asked of them, and that their results are as promised,
with less than `rest` left to read.  Tokens of `real` kinds count as read. -/
structure Discipline (ι : Type) extends Likeness ι where
  holds : Stage → Nat → {α : Type} → ((ι → α) → Prop) → (ι → Parse α) → Prop
  member : ι
  real : TokenKind → Prop
  known : Grammar → Prop
  /-- What is asked of the readers together. -/
  stands : (ι → Reader) → Prop
  /-- Loops with these numbers of rounds do not run out of them apart from one another. -/
  enough : Nat → (ι → Nat) → Prop
  genuine : ∀ {kind}, kind ≠ .endOfInput → real kind
  ruled : ∀ {grammar kind rule}, known grammar → grammar.operands kind = some rule → real kind
  spent : ∀ {count less fewer}, enough count (fun member => fewer member + 1) →
    less ≤ count - 1 → enough less fewer
  done : ∀ {count α} {promised : (ι → α) → Prop} {values : ι → α}, promised values →
    holds (.behind count) count promised fun member => pure (values member)
  blame : ∀ {count rest α} {promised : (ι → α) → Prop} {shown : ι → Token} {cause : Cause},
    token shown → cause.phase = .syntactic →
    holds (.behind count) rest promised fun member => Parse.fail cause (shown member).span.start
  exhausted : ∀ {count rest α} {promised : (ι → α) → Prop} {family : ι → Parse α}
    {rounds : ι → Nat} {member : ι}, enough count rounds → rounds member = 0 →
    (∀ other, rounds other = 0 → family other = throw .endless) →
    holds (.behind count) rest promised family
  bind : ∀ {stage between rest α β} {promised : (ι → α) → Prop} {further : (ι → β) → Prop}
    {first : ι → Parse α} {second : ι → α → Parse β}, holds stage between promised first →
    (∀ values, promised values →
      holds (.behind between) rest further fun member => second member (values member)) →
    holds stage rest further fun member => first member >>= second member
  widen : ∀ {stage rest more α} {promised : (ι → α) → Prop} {family : ι → Parse α},
    holds stage rest promised family → rest ≤ more → holds stage more promised family
  relax : ∀ {count rest α} {promised : (ι → α) → Prop} {family : ι → Parse α},
    holds (.behind count) rest promised family → holds (.before (count - 1)) rest promised family
  look : ∀ {count rest α} {promised : (ι → α) → Prop} {next : ι → Token → Parse α},
    (∀ shown kind text, token shown → (∀ member, (shown member).kind = kind) →
      (∀ member, (shown member).value = text) → real kind →
      holds (.before (count - 1)) rest promised fun member => next member (shown member)) →
    (∀ shown kind text, token shown → (∀ member, (shown member).kind = kind) →
      (∀ member, (shown member).value = text) → ¬ real kind →
      holds (.behind count) rest promised fun member => next member (shown member)) →
    holds (.behind count) rest promised fun member => Parse.peek >>= next member
  take : ∀ {count}, holds (.before count) count token fun _ => Parse.advance
  /-- An operator that does not count as read may be used up all the same. -/
  takeUnread : ∀ {count grammar kind rule}, known grammar → grammar.operators kind = some rule →
    ¬ real kind → holds (.behind count) count token fun _ => Parse.advance
  ask : ∀ {stage rest α} {promised : (ι → α) → Prop} {next : ι → Reader → Parse α},
    (∀ readers grammar, stands readers → known grammar →
      (∀ member, (readers member).grammar = grammar) →
      holds stage rest promised fun member => next member (readers member)) →
    holds stage rest promised fun member => get >>= next member
  count : ∀ {count rest α} {promised : (ι → α) → Prop} {next : ι → Nat → Parse α},
    (∀ fewer rounds, fewer ≤ count → enough fewer rounds →
      holds (.behind fewer) rest promised fun member => next member (rounds member)) →
    holds (.behind count) rest promised fun member => Parse.rounds >>= next member

/-- The end of the input begins no operand of the language. -/
theorem Grammar.genuine_of_operand {kind : TokenKind} {rule : OperandRule}
    (ruled : standard.operands kind = some rule) : kind ≠ .endOfInput := by
  rintro rfl
  have absent : standard.operands .endOfInput = none := by decide
  cases absent.symm.trans ruled

/-- The end of the input is no operator of the language. -/
theorem Grammar.genuine_of_operator {kind : TokenKind} {rule : OperatorRule}
    (ruled : standard.operators kind = some rule) : kind ≠ .endOfInput := by
  rintro rfl
  have absent : standard.operators .endOfInput = none := by decide
  cases absent.symm.trans ruled

/-- A loop of many members is followed until a first one of them has no rounds left. -/
theorem rounds_induct {ι : Type} (member : ι) {motive : (ι → Nat) → Prop}
    (exhausted : ∀ rounds member, rounds member = 0 → motive rounds)
    (further : ∀ fewer, motive fewer → motive fun member => fewer member + 1)
    (rounds : ι → Nat) : motive rounds := by
  generalize total : rounds member = number
  induction number generalizing rounds with
  | zero => exact exhausted rounds member total
  | succ number ih =>
      by_cases some : ∃ other, rounds other = 0
      · obtain ⟨other, none⟩ := some
        exact exhausted rounds other none
      · rw [not_exists] at some
        have split : rounds = fun member => rounds member - 1 + 1 :=
          funext fun member => (Nat.sub_add_cancel (Nat.pos_of_ne_zero (some member))).symm
        rw [split]
        exact further _ (ih _ (by omega))

namespace Discipline

variable {ι α : Type} {discipline : Discipline ι} {promised : (ι → α) → Prop} {count rest : Nat}

/-! ## Steps -/

/-- A result needs nothing to be read. -/
theorem finish {values : ι → α} (promise : promised values) (within : count ≤ rest) :
    discipline.holds (.behind count) rest promised fun member => pure (values member) :=
  discipline.widen (discipline.done promise) within

/-- Look at the kind of a token. -/
theorem lookKind {next : ι → TokenKind → Parse α}
    (real : ∀ kind, discipline.real kind →
      discipline.holds (.before (count - 1)) rest promised fun member => next member kind)
    (unread : ∀ kind, ¬ discipline.real kind →
      discipline.holds (.behind count) rest promised fun member => next member kind) :
    discipline.holds (.behind count) rest promised fun member =>
      Parse.peekKind >>= next member := by
  simp only [Parse.peekKind, bind_assoc, pure_bind]
  apply discipline.look
  · intro shown kind text _ kinds _ counts
    simp only [kinds]
    exact real kind counts
  · intro shown kind text _ kinds _ counts
    simp only [kinds]
    exact unread kind counts

/-- Look at the kind of a token that need not be used up. -/
theorem glance {next : ι → TokenKind → Parse α}
    (further : ∀ kind,
      discipline.holds (.behind count) rest promised fun member => next member kind) :
    discipline.holds (.behind count) rest promised fun member =>
      Parse.peekKind >>= next member :=
  lookKind (fun kind _ => discipline.relax (further kind)) fun kind _ => further kind

/-- Look whether a token of the source is of a kind, and use it up only then. -/
theorem lookFor {sought : TokenKind} (genuine : sought ≠ .endOfInput) {found other : ι → Parse α}
    (taken : discipline.holds (.before (count - 1)) rest promised found)
    (left : discipline.holds (.behind count) rest promised other) :
    discipline.holds (.behind count) rest promised fun member =>
      Parse.peekKind >>= fun kind => if kind = sought then found member else other member := by
  apply discipline.lookKind
  · intro kind _
    by_cases same : kind = sought
    · simp only [if_pos same]
      exact taken
    · simp only [if_neg same]
      exact discipline.relax left
  · intro kind unread
    have different : kind ≠ sought := by
      rintro rfl
      exact unread (discipline.genuine genuine)
    simp only [if_neg different]
    exact left

/-- Expecting a token uses one up, unless it is the end of the input that is expected. -/
theorem expectOneOf {kinds : List TokenKind} (genuine : .endOfInput ∉ kinds) :
    discipline.holds (.behind count) (count - 1) discipline.token fun _ =>
      Parse.expectOneOf kinds := by
  apply discipline.look
  · intro shown kind text seen same texts _
    simp only [same, texts]
    by_cases member : kind ∈ kinds
    · simp only [if_pos member]
      exact discipline.take
    · simp only [if_neg member]
      exact discipline.relax (discipline.blame seen rfl)
  · intro shown kind text seen same texts unread
    have outside : kind ∉ kinds := by
      intro member
      refine unread (discipline.genuine fun final => genuine ?_)
      rwa [final] at member
    simp only [same, texts, if_neg outside]
    exact discipline.blame seen rfl

/-- At the limit the token in view is blamed. -/
theorem tooDeep (limit : Nat) :
    discipline.holds (.behind count) rest promised fun _ => Parse.tooDeep limit := by
  apply discipline.look
  · intro shown _ _ seen _ _ _
    exact discipline.relax (discipline.blame seen rfl)
  · intro shown _ _ seen _ _ _
    exact discipline.blame seen rfl

end Discipline

/-! ## Productions -/

/-- The inner productions obey the discipline as long as less than `bound` is left to read.  A
statement and an expression use up a token. -/
structure Productions.Obey {ι : Type} (discipline : Discipline ι) (bound : Nat)
    (inner : ι → Productions) : Prop where
  statement : ∀ {count}, count ≤ bound → discipline.holds (.behind count) (count - 1)
    discipline.statement fun member => (inner member).statement
  expression : ∀ {count} power, count ≤ bound → discipline.holds (.behind count) (count - 1)
    discipline.expression fun member => (inner member).expression power

namespace Productions.Obey

variable {ι : Type} {discipline : Discipline ι} {bound count : Nat} {inner : ι → Productions}
  (obey : Obey discipline bound inner)
include obey

/-! ### Expressions -/

theorem grouping (within : count ≤ bound + 1) :
    discipline.holds (.behind count) (count - 1) discipline.expression fun member =>
      Parse.grouping (inner member) := by
  apply discipline.bind (discipline.expectOneOf (by decide))
  intro _ _
  apply discipline.bind (obey.expression .lowest (by omega))
  intro expressions alike
  apply discipline.bind (discipline.expectOneOf (by decide))
  intro _ _
  exact discipline.finish alike (by omega)

/-- An operand, from where a token may be used up and a group may be read. -/
theorem operandFrom {stage : Stage} (rule : OperandRule)
    (uses : discipline.holds stage count discipline.token fun _ => Parse.advance)
    (groups : discipline.holds stage count discipline.expression fun member =>
      Parse.grouping (inner member))
    (within : count ≤ bound) :
    discipline.holds stage count discipline.expression fun member =>
      Parse.operand (inner member) rule := by
  cases rule with
  | primary =>
      apply discipline.bind uses
      intro shown seen
      exact discipline.done (discipline.atom seen)
  | reference =>
      apply discipline.bind uses
      intro names seen
      refine discipline.lookFor (by decide) ?_ ?_
      · apply discipline.bind discipline.take
        intro _ _
        apply discipline.bind (discipline.expectOneOf (by decide))
        intro _ _
        exact discipline.finish (discipline.call seen) (by omega)
      · exact discipline.done (discipline.atom seen)
  | unary =>
      apply discipline.bind uses
      intro operators seen
      apply discipline.bind (obey.expression .unary within)
      intro operands alike
      exact discipline.finish (discipline.unary seen alike) (by omega)
  | grouping => exact groups

/-- An operand begins with the token in view. -/
theorem operand (rule : OperandRule) (within : count ≤ bound + 1) :
    discipline.holds (.before (count - 1)) (count - 1) discipline.expression fun member =>
      Parse.operand (inner member) rule :=
  obey.operandFrom rule discipline.take (discipline.relax (obey.grouping within)) (by omega)

/-- An operator and its right operand, from where the operator may be used up. -/
theorem operator {stage : Stage} {lefts : ι → Expression} (power : Power) (rule : OperatorRule)
    (uses : discipline.holds stage count discipline.token fun _ => Parse.advance)
    (left : discipline.expression lefts) (within : count ≤ bound) :
    discipline.holds stage (count - 1) discipline.expression fun member =>
      Parse.operator (inner member) (lefts member) power rule := by
  cases rule with
  | binary =>
      apply discipline.bind uses
      intro operators seen
      apply discipline.bind (obey.expression power within)
      intro rights right
      exact discipline.done (discipline.binary seen left right)

/-- The loop over operators, once the next token is in view.  Whether an operator counts as read
makes no difference, because its right operand does. -/
theorem operatorsAt {stage : Stage} {kind : TokenKind} (power : Power) {fewer : ι → Nat}
    {lefts : ι → Expression}
    (stops : discipline.holds stage count discipline.expression fun member => pure (lefts member))
    (uses : ∀ {grammar rule}, discipline.known grammar → grammar.operators kind = some rule →
      discipline.holds stage count discipline.token fun _ => Parse.advance)
    (others : ∀ values, discipline.expression values →
      discipline.holds (.behind (count - 1)) (count - 1) discipline.expression fun member =>
        Parse.operators (inner member) power (fewer member) (values member))
    (left : discipline.expression lefts) (within : count ≤ bound) :
    discipline.holds stage count discipline.expression fun member => do
      let grammar := (← get).grammar
      match grammar.powers kind, grammar.operators kind with
      | some next, some rule =>
          if next ≤ power then
            return lefts member
          else
            Parse.operators (inner member) power (fewer member)
              (← Parse.operator (inner member) (lefts member) next rule)
      | _, _ => return lefts member := by
  apply discipline.ask
  intro readers grammar _ known same
  simp only [same]
  cases grammar.powers kind with
  | none => exact stops
  | some next =>
      cases ruled : grammar.operators kind with
      | none => exact stops
      | some rule =>
          dsimp only
          by_cases weaker : next ≤ power
          · simp only [if_pos weaker]
            exact stops
          · simp only [if_neg weaker]
            apply discipline.bind (obey.operator next rule (uses known ruled) left within)
            intro values alike
            exact discipline.widen (others values alike) (by omega)

theorem operators (power : Power) {rounds : ι → Nat} {lefts : ι → Expression}
    (enough : discipline.enough count rounds) (left : discipline.expression lefts)
    (within : count ≤ bound) :
    discipline.holds (.behind count) count discipline.expression fun member =>
      Parse.operators (inner member) power (rounds member) (lefts member) := by
  -- All members lose a round at a time, until the first of them has none left.
  induction rounds using rounds_induct discipline.member generalizing count lefts with
  | exhausted rounds member none =>
      refine discipline.exhausted enough none fun other nothing => ?_
      rw [nothing]
      rfl
  | further fewer ih =>
      have others := fun values alike =>
        @ih (count - 1) values (discipline.spent enough (by omega)) alike (by omega)
      have stops := @discipline.done count _ _ _ left
      apply discipline.lookKind
      · intro kind _
        refine obey.operatorsAt power (discipline.relax stops) ?_ others left within
        exact fun _ _ => discipline.widen discipline.take (by omega)
      · intro kind unread
        refine obey.operatorsAt power stops ?_ others left within
        exact fun known ruled => discipline.takeUnread known ruled unread

theorem expressionBody (power : Power) (within : count ≤ bound + 1) :
    discipline.holds (.behind count) (count - 1) discipline.expression fun member =>
      Parse.expressionBody (inner member) power := by
  apply discipline.look
  · intro shown kind text seen kinds texts _
    apply discipline.ask
    intro readers grammar _ known same
    simp only [same, kinds, texts]
    cases grammar.operands kind with
    | none => exact discipline.relax (discipline.blame seen rfl)
    | some rule =>
        apply discipline.bind (obey.operand rule within)
        intro lefts left
        apply discipline.count
        intro fewer rounds less enough
        exact discipline.widen (obey.operators power enough left (by omega)) less
  · intro shown kind text seen kinds texts unread
    apply discipline.ask
    intro readers grammar _ known same
    simp only [same, kinds, texts]
    cases ruled : grammar.operands kind with
    | none => exact discipline.blame seen rfl
    | some rule => exact absurd (discipline.ruled known ruled) unread

/-! ### Statements -/

theorem alternatives {rounds : ι → Nat} (enough : discipline.enough count rounds)
    (within : count ≤ bound) :
    discipline.holds (.behind count) count discipline.alternatives fun member =>
      Parse.alternatives (inner member) (rounds member) := by
  induction rounds using rounds_induct discipline.member generalizing count with
  | exhausted rounds member none =>
      refine discipline.exhausted enough none fun other nothing => ?_
      rw [nothing]
      rfl
  | further fewer ih =>
      refine discipline.lookFor (by decide) ?_ ?_
      · apply discipline.bind discipline.take
        intro first seen
        refine discipline.lookFor (by decide) ?_ ?_
        · apply discipline.bind discipline.take
          intro _ _
          apply discipline.bind (obey.grouping (by omega))
          intro conditions condition
          apply discipline.bind (obey.statement (by omega))
          intro branches branch
          apply discipline.bind (ih (discipline.spent enough (by omega)) (by omega))
          intro others alike
          exact discipline.finish (discipline.elseIf condition branch alike
            (discipline.start seen) (discipline.ends branch)) (by omega)
        · apply discipline.bind (obey.statement (by omega))
          intro branches branch
          exact discipline.finish (discipline.otherwise branch) (by omega)
      · exact discipline.done discipline.nothing

theorem conditional (within : count ≤ bound + 1) :
    discipline.holds (.behind count) (count - 1) discipline.statement fun member =>
      Parse.conditional (inner member) := by
  apply discipline.bind (discipline.expectOneOf (by decide))
  intro first seen
  apply discipline.bind (obey.grouping (by omega))
  intro conditions condition
  apply discipline.bind (obey.statement (by omega))
  intro branches branch
  apply discipline.count
  intro fewer rounds less enough
  apply discipline.bind (obey.alternatives enough (by omega))
  intro others alike
  exact discipline.finish (discipline.conditional condition branch alike (discipline.start seen)
    (discipline.endsOr alike (discipline.ends branch))) (by omega)

theorem loop (within : count ≤ bound + 1) :
    discipline.holds (.behind count) (count - 1) discipline.statement fun member =>
      Parse.loop (inner member) := by
  apply discipline.bind (discipline.expectOneOf (by decide))
  intro first seen
  apply discipline.bind (obey.grouping (by omega))
  intro conditions condition
  apply discipline.bind (obey.statement (by omega))
  intro bodies body
  exact discipline.finish (discipline.loop condition body (discipline.start seen)
    (discipline.ends body)) (by omega)

/-- One statement, and then the others. -/
theorem statementFirst {others : ι → Parse (List Statement)} (within : count ≤ bound)
    (further : discipline.holds (.behind (count - 1)) (count - 1) discipline.body others) :
    discipline.holds (.behind count) count discipline.body fun member => do
      let first ← (inner member).statement
      return first :: (← others member) := by
  apply discipline.bind (obey.statement within)
  intro firsts first
  apply discipline.bind further
  intro bodies body
  exact discipline.finish (discipline.cons first body) (by omega)

theorem statements {rounds : ι → Nat} (enough : discipline.enough count rounds)
    (within : count ≤ bound) :
    discipline.holds (.behind count) count discipline.body fun member =>
      Parse.statements (inner member) (rounds member) := by
  induction rounds using rounds_induct discipline.member generalizing count with
  | exhausted rounds member none =>
      refine discipline.exhausted enough none fun other nothing => ?_
      rw [nothing]
      rfl
  | further fewer ih =>
      apply discipline.glance
      intro kind
      by_cases closed : kind = .closeCurly ∨ kind = .endOfInput
      · simp only [if_pos closed]
        exact discipline.done discipline.nil
      · simp only [if_neg closed]
        exact obey.statementFirst within (ih (discipline.spent enough (by omega)) (by omega))

theorem block (within : count ≤ bound + 1) :
    discipline.holds (.behind count) (count - 1) discipline.Whole fun member =>
      Parse.block (inner member) := by
  apply discipline.bind (discipline.expectOneOf (by decide))
  intro first opens
  apply discipline.count
  intro fewer rounds less enough
  apply discipline.bind (obey.statements enough (by omega))
  intro bodies body
  apply discipline.bind (discipline.expectOneOf (by decide))
  intro last closes
  exact discipline.finish ⟨body, discipline.start opens, discipline.stop closes⟩ (by omega)

theorem assignment (within : count ≤ bound + 1) :
    discipline.holds (.behind count) (count - 1) discipline.statement fun member =>
      Parse.assignment (inner member) := by
  apply discipline.bind (discipline.expectOneOf (by decide))
  intro targets seen
  apply discipline.bind (discipline.expectOneOf (by decide))
  intro _ _
  apply discipline.bind (obey.expression .lowest (by omega))
  intro values alike
  apply discipline.bind (discipline.expectOneOf (by decide))
  intro last closes
  exact discipline.finish (discipline.assignment seen alike (discipline.start seen)
    (discipline.stop closes)) (by omega)

theorem statementBody (within : count ≤ bound + 1) :
    discipline.holds (.behind count) (count - 1) discipline.statement fun member =>
      Parse.statementBody (inner member) := by
  apply discipline.glance
  intro kind
  apply discipline.ask
  intro readers grammar _ _ same
  simp only [same]
  cases (grammar.statements kind).getD .assignment with
  | conditional => exact obey.conditional within
  | loop => exact obey.loop within
  | assignment => exact obey.assignment within
  | block =>
      apply discipline.bind (obey.block within)
      intro blocks whole
      exact discipline.done (discipline.block whole.body whole.start whole.stop)

/-! ### Programs -/

theorem program {rounds : ι → Nat} (enough : discipline.enough count rounds)
    (within : count ≤ bound) :
    discipline.holds (.behind count) count discipline.body fun member =>
      Parse.program (inner member) (rounds member) := by
  induction rounds using rounds_induct discipline.member generalizing count with
  | exhausted rounds member none =>
      refine discipline.exhausted enough none fun other nothing => ?_
      rw [nothing]
      rfl
  | further fewer ih =>
      simp only [Parse.program, Parse.hasTokens, bind_assoc, pure_bind]
      apply discipline.glance
      intro kind
      by_cases more : decide (kind ≠ .endOfInput) = true
      · simp only [if_pos more]
        exact obey.statementFirst within (ih (discipline.spent enough (by omega)) (by omega))
      · simp only [if_neg more]
        exact discipline.done discipline.nil

/-- A program, and what is made of it and of the token that it ends at. -/
theorem programEnd {α : Type} {promised : (ι → α) → Prop} {rounds : ι → Nat}
    {close : ι → List Statement → Token → α} (enough : discipline.enough count rounds)
    (closes : ∀ {bodies shown}, discipline.body bodies → discipline.token shown →
      promised fun member => close member (bodies member) (shown member))
    (within : count ≤ bound) :
    discipline.holds (.behind count) count promised fun member => do
      let body ← Parse.program (inner member) (rounds member)
      return close member body (← Parse.peek) := by
  apply discipline.bind (obey.program enough within)
  intro bodies body
  apply discipline.look
  · intro shown kind text seen _ _ _
    exact discipline.relax (discipline.done (closes body seen))
  · intro shown kind text seen _ _ _
    exact discipline.done (closes body seen)

theorem programBlock
    (origin : ∀ {readers}, discipline.stands readers →
      discipline.point fun member => Place.start.inFile (readers member).cursor.file)
    (within : count ≤ bound) :
    discipline.holds (.behind count) count discipline.Whole fun member =>
      Parse.programBlock (inner member) := by
  apply discipline.ask
  intro readers grammar stands _ _
  apply discipline.count
  intro fewer rounds less enough
  refine discipline.widen (obey.programEnd enough (fun body seen => ?_) (by omega)) less
  exact ⟨body, origin stands, discipline.stop seen⟩

end Productions.Obey

end Scriptlet
