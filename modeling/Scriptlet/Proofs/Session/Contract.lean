import Scriptlet.Proofs.Families.Lockstep
import Scriptlet.Proofs.Lexing.Coordinates

/-!
# Contracts with readers

A contract says how a reader may stand and what may come out of it: which tokens, which positions in
trees, which ways to halt.  It speaks about single steps only, that is about reading one token and
about the end of the input.  Whatever it says then holds of every production, over any grammar and
however the production ends (`Keeps`), and so do three facts that no contract has to ask for: the
grammar stays, the depth comes back, and no more levels are opened than the production may open
(`Framed`).
-/

namespace Scriptlet

/-! ## Positions of a tree -/

/-- The positions in an expression. -/
def Expression.positions : Expression → List Position
  | .binary operator left right => left.positions ++ operator.span.positions ++ right.positions
  | .unary operator operand => operator.span.positions ++ operand.positions
  | .atom token => token.span.positions
  | .call callee => callee.span.positions

mutual

/-- The positions in a statement and in everything inside it. -/
def Statement.positions : Statement → List Position
  | .block body span => span.positions ++ Statement.positionsOfAll body
  | .assignment target value span => span.positions ++ target.span.positions ++ value.positions
  | .conditional condition branch alternatives span =>
      span.positions ++ condition.positions ++ branch.positions ++ alternatives.positions
  | .loop condition body span => span.positions ++ condition.positions ++ body.positions
  termination_by structural statement => statement

/-- The positions in a list of statements. -/
def Statement.positionsOfAll : List Statement → List Position
  | [] => []
  | first :: others => first.positions ++ Statement.positionsOfAll others
  termination_by structural statements => statements

/-- The positions in the alternatives of a conditional. -/
def Alternatives.positions : Alternatives → List Position
  | .nothing => []
  | .otherwise branch => branch.positions
  | .elseIf condition branch span others =>
      span.positions ++ condition.positions ++ branch.positions ++ others.positions
  termination_by structural alternatives => alternatives

end

/-- The positions in a block and in everything inside it. -/
def Block.positions (block : Block) : List Position :=
  block.span.positions ++ Statement.positionsOfAll block.body

theorem Statement.stop_mem_positions (statement : Statement) :
    statement.span.stop ∈ statement.positions := by
  cases statement <;> simp [span, positions, Span.positions]

/-- Where alternatives end is one of their positions. -/
theorem Alternatives.stop_mem_positions {alternatives : Alternatives} {position : Position}
    (ends : alternatives.stop? = some position) : position ∈ alternatives.positions := by
  cases alternatives with
  | nothing => cases ends
  | otherwise branch =>
      cases ends
      exact branch.stop_mem_positions
  | elseIf condition branch span others =>
      cases ends
      cases last : others.stop? with
      | none => simp [positions, Span.positions]
      | some position =>
          have inside := stop_mem_positions last
          simp [positions, inside]

/-! ## Contracts -/

/-- A claim about readers that single steps keep up.  Readers stand as it `admits`, or as it
`abandons` them when they have halted. -/
structure Contract where
  admits : Cursor → Option Token → Prop
  abandons : Cursor → Option Token → Prop
  token : Token → Prop
  point : Position → Prop
  halt : Halt → Prop
  abandoned : ∀ {cursor lookahead}, admits cursor lookahead → abandons cursor lookahead
  held : ∀ {cursor shown}, admits cursor (some shown) → token shown
  used : ∀ {cursor shown}, admits cursor (some shown) → admits cursor none
  read : ∀ {cursor after shown}, cursor.hasNext = true → admits cursor none →
    cursor.nextToken = (.ok shown, after) → admits after (some shown)
  fault : ∀ {cursor after diagnostic}, cursor.hasNext = true → admits cursor none →
    cursor.nextToken = (.error diagnostic, after) → abandons after none ∧ halt (.failed diagnostic)
  ended : ∀ {cursor}, cursor.hasNext = false → admits cursor none →
    admits cursor (some (.endOfInput cursor.position))
  points : ∀ {shown}, token shown → ∀ position ∈ shown.span.positions, point position
  blamed : ∀ {shown cause}, token shown → cause.phase = .syntactic →
    halt (.failed ⟨cause, shown.span.start⟩)
  endless : halt .endless
  origin : ∀ {cursor lookahead}, admits cursor lookahead →
    point (Place.start.inFile cursor.file)

/-- The reader stands as the contract admits. -/
def Contract.Admits (contract : Contract) (reader : Reader) : Prop :=
  contract.admits reader.cursor reader.lookahead

/-- The reader may be left so by a production that halts. -/
def Contract.Abandons (contract : Contract) (reader : Reader) : Prop :=
  contract.abandons reader.cursor reader.lookahead

/-- All these positions may stand in a tree. -/
def Contract.Allows (contract : Contract) (positions : List Position) : Prop :=
  ∀ position ∈ positions, contract.point position

namespace Contract

variable {contract : Contract}

@[simp] theorem allows_nil : contract.Allows [] := by simp [Allows]

@[simp] theorem allows_append {front back : List Position} :
    contract.Allows (front ++ back) ↔ contract.Allows front ∧ contract.Allows back := by
  simp [Allows, or_imp, forall_and]

@[simp] theorem allows_span {start stop : Position} :
    contract.Allows (Span.mk start stop).positions ↔
      contract.point start ∧ contract.point stop := by
  simp [Allows, Span.positions]

theorem allows_token {shown : Token} (fits : contract.token shown) :
    contract.Allows shown.span.positions := contract.points fits

theorem point_start {shown : Token} (fits : contract.token shown) :
    contract.point shown.span.start := contract.points fits _ (by simp [Span.positions])

theorem point_stop {shown : Token} (fits : contract.token shown) :
    contract.point shown.span.stop := contract.points fits _ (by simp [Span.positions])

/-- What a reader pulls in. -/
theorem pull {reader : Reader} (stands : contract.admits reader.cursor none) :
    match reader.pull with
    | (.ok shown, cursor) => contract.admits cursor (some shown)
    | (.error diagnostic, cursor) => contract.abandons cursor none ∧
        contract.halt (.failed diagnostic) := by
  rw [Reader.pull]
  cases more : reader.cursor.hasNext with
  | false => exact contract.ended more stands
  | true =>
      simp only [if_true]
      split
      next shown cursor read => exact contract.read more stands read
      next diagnostic cursor read => exact contract.fault more stands read

end Contract

/-- What a production may change besides cursor and lookahead, when it may open so many levels. -/
structure Reader.Framed (levels : Nat) (reader after : Reader) : Prop where
  grammar : after.grammar = reader.grammar
  depth : after.depth = reader.depth
  rises : reader.deepest ≤ after.deepest
  deepest : after.deepest ≤ max reader.deepest (reader.depth + levels)

namespace Reader.Framed

variable {levels : Nat} {reader middle after : Reader}

theorem ofMoved (moved : Parse.Moved reader after) : reader.Framed levels after where
  grammar := moved.grammar
  depth := moved.depth
  rises := Nat.le_of_eq moved.deepest.symm
  deepest := Nat.le_trans (Nat.le_of_eq moved.deepest) (Nat.le_max_left _ _)

theorem refl (reader : Reader) : reader.Framed levels reader := ofMoved ⟨rfl, rfl, rfl⟩

theorem trans (first : reader.Framed levels middle) (second : middle.Framed levels after) :
    reader.Framed levels after where
  grammar := second.grammar.trans first.grammar
  depth := second.depth.trans first.depth
  rises := Nat.le_trans first.rises second.rises
  deepest := by
    have upper := second.deepest
    rw [first.depth] at upper
    have lower := first.deepest
    omega

/-- A level that is left from where it was entered. -/
theorem leave (inside : reader.entered.Framed levels after) :
    reader.Framed (levels + 1) after.exited := by
  have depth : after.depth = reader.depth + 1 := inside.depth
  have rises : max reader.deepest (reader.depth + 1) ≤ after.deepest := inside.rises
  have deepest : after.deepest ≤
      max (max reader.deepest (reader.depth + 1)) (reader.depth + 1 + levels) := inside.deepest
  refine ⟨inside.grammar, ?_, ?_, ?_⟩ <;> simp only [exited] <;> omega

end Reader.Framed

namespace Contract

/-- The expression has only positions that the contract allows. -/
abbrev Sound (contract : Contract) (value : Expression) : Prop := contract.Allows value.positions

/-- The statement has only positions that the contract allows. -/
abbrev Placed (contract : Contract) (value : Statement) : Prop := contract.Allows value.positions

/-- What a contract says of one reader's tokens and of the trees that are made of them. -/
def likeness (contract : Contract) : Likeness Unit where
  token shown := contract.token (shown ())
  point positions := contract.point (positions ())
  expression values := contract.Sound (values ())
  statement values := contract.Placed (values ())
  body values := contract.Allows (Statement.positionsOfAll (values ()))
  alternatives values := contract.Allows (values ()).positions
  start := contract.point_start
  stop := contract.point_stop
  atom := contract.allows_token
  call := contract.allows_token
  unary seen operand := allows_append.mpr ⟨contract.allows_token seen, operand⟩
  binary seen left right :=
    allows_append.mpr ⟨allows_append.mpr ⟨left, contract.allows_token seen⟩, right⟩
  nil := allows_nil
  cons first others := allows_append.mpr ⟨first, others⟩
  nothing := allows_nil
  otherwise branch := branch
  elseIf condition branch others start stop := by
    simp only [Alternatives.positions, allows_append, allows_span]
    exact ⟨⟨⟨⟨start, stop⟩, condition⟩, branch⟩, others⟩
  block body start stop := allows_append.mpr ⟨allows_span.mpr ⟨start, stop⟩, body⟩
  assignment seen value start stop := by
    simp only [Placed, Statement.positions, allows_append, allows_span]
    exact ⟨⟨⟨start, stop⟩, contract.allows_token seen⟩, value⟩
  conditional condition branch others start stop := by
    simp only [Placed, Statement.positions, allows_append, allows_span]
    exact ⟨⟨⟨⟨start, stop⟩, condition⟩, branch⟩, others⟩
  loop condition body start stop := by
    simp only [Placed, Statement.positions, allows_append, allows_span]
    exact ⟨⟨⟨start, stop⟩, condition⟩, body⟩
  ends placed := placed _ (Statement.stop_mem_positions _)
  endsOr {others stops} placed stop := by
    change contract.point ((others ()).stop?.getD (stops ()))
    cases ends : (others ()).stop? with
    | none => exact stop
    | some position => exact placed _ (Alternatives.stop_mem_positions ends)

variable {contract : Contract} {levels : Nat} {reader : Reader}

/-- A token that a reader looked at or used up, and how the reader is left. -/
def Stepped (contract : Contract) : EStateM.Result Halt Reader Token → Prop
  | .ok shown after => contract.Admits after ∧ contract.token shown
  | .error halt after => contract.Abandons after ∧ contract.halt halt

theorem stepped_peek (stands : contract.Admits reader) : contract.Stepped (Parse.peek reader) := by
  rw [Parse.peek]
  cases seen : reader.lookahead with
  | some shown =>
      rw [Admits, seen] at stands
      exact ⟨by rwa [Admits, seen], contract.held stands⟩
  | none =>
      rw [Admits, seen] at stands
      have pulled := contract.pull stands
      split at pulled
      next shown cursor read =>
        simp only [read]
        exact ⟨pulled, contract.held pulled⟩
      next diagnostic cursor read =>
        simp only [read]
        exact ⟨by simpa only [Abandons, seen] using pulled.1, pulled.2⟩

theorem stepped_advance (stands : contract.Admits reader) :
    contract.Stepped (Parse.advance reader) := by
  rw [Parse.advance]
  cases seen : reader.lookahead with
  | some shown =>
      rw [Admits, seen] at stands
      exact ⟨contract.used stands, contract.held stands⟩
  | none =>
      rw [Admits, seen] at stands
      have pulled := contract.pull stands
      split at pulled
      next shown cursor read =>
        simp only [read]
        refine ⟨?_, contract.held pulled⟩
        simpa only [Admits, seen] using contract.used pulled
      next diagnostic cursor read =>
        simp only [read]
        exact ⟨by simpa only [Abandons, seen] using pulled.1, pulled.2⟩

/-- A reader by itself, under a contract, with so many levels to open. -/
def lockstep (contract : Contract) (levels : Nat) : Lockstep Unit where
  toLikeness := contract.likeness
  admits _ readers := contract.Admits (readers ())
  moved readers afters := (readers ()).Framed levels (afters ())
  halted readers halts afters := contract.Abandons (afters ()) ∧
    (readers ()).Framed levels (afters ()) ∧ contract.halt (halts ())
  member := ()
  real _ := True
  known _ := True
  enough _ _ := True

/-- A step changes no more than a production may, and keeps the contract. -/
theorem Stepped.runs {step : Parse Token} {readers : Unit → Reader}
    (stepped : contract.Stepped (step (readers ())))
    (moved : Parse.Moved (readers ()) (Parse.left (step (readers ())))) :
    (contract.lockstep levels).Runs readers
      (fun shown afters => contract.Admits (afters ()) ∧ contract.token (shown ()))
      fun member => step (readers member) := by
  have frame : (readers ()).Framed levels (Parse.left (step (readers ()))) := .ofMoved moved
  cases ran : step (readers ()) with
  | error halt after =>
      rw [ran] at stepped frame
      exact .halt (fun _ => ran) ⟨stepped.1, frame, stepped.2⟩
  | ok shown after =>
      rw [ran] at stepped frame
      exact .done (fun _ => ran) frame stepped

theorem lockstep_lawful (contract : Contract) (levels : Nat) :
    (contract.lockstep levels).Lawful where
  genuine _ := trivial
  ruled _ _ := trivial
  spent _ _ := trivial
  stay readers := .refl (readers ())
  onward first second := first.trans second
  halting moved halted := ⟨halted.1, moved.trans halted.2.1, halted.2.2⟩
  widens stands _ := stands
  relaxes stands := stands
  blames stands seen syntactic :=
    ⟨contract.abandoned stands, .refl _, contract.blamed seen syntactic⟩
  exhausts stands _ none := ⟨fun _ => none, contract.abandoned stands, .refl _, contract.endless⟩
  peeked stands := ((stepped_peek stands).runs (Parse.moved_peek _)).mono
    fun shown _ kept => ⟨kept.2, (shown ()).kind, (shown ()).value, fun _ => rfl, fun _ => rfl,
      fun _ => kept.1, fun _ => kept.1⟩
  taken stands := (stepped_advance stands).runs (Parse.moved_advance _)
  takenUnread _ _ unread := absurd trivial unread
  asked {_ readers} _ := ⟨(readers ()).grammar, trivial, fun _ => rfl⟩
  counted stands := ⟨_, Nat.le_refl _, stands, trivial⟩

/-- One level further in, one level less may be opened. -/
theorem lockstep_opens (contract : Contract) (levels : Nat) :
    (contract.lockstep (levels + 1)).Opens (contract.lockstep levels) where
  alike := rfl
  enters stands := stands
  exits stands := stands
  moves framed := framed.leave
  halts halted := ⟨halted.1, halted.2.1.leave, halted.2.2⟩

end Contract

/-! ## Productions -/

namespace Parse

variable {α β : Type} {contract : Contract} {levels : Nat} {promised : α → Prop}
  {further : β → Prop} {production : Parse α}

/-- The production keeps the contract and opens at most so many levels.  What it gives is as
promised. -/
def Keeps (contract : Contract) (levels : Nat) (promised : α → Prop) (production : Parse α) :
    Prop :=
  ∀ reader, contract.Admits reader →
    match production reader with
    | .ok value after => contract.Admits after ∧ reader.Framed levels after ∧ promised value
    | .error halt after => contract.Abandons after ∧ reader.Framed levels after ∧
        contract.halt halt

namespace Keeps

theorem holds (keeps : Keeps contract levels promised production) (stage : Stage) (rest : Nat) :
    (contract.lockstep levels).Holds stage rest (fun values => promised (values ()))
      fun _ => production := by
  intro readers stands
  have kept := keeps (readers ()) stands
  cases ran : production (readers ()) with
  | error halt after =>
      rw [ran] at kept
      exact .halt (fun _ => ran) kept
  | ok value after =>
      rw [ran] at kept
      exact .done (fun _ => ran) kept.2.1 ⟨kept.1, kept.2.2⟩

theorem ofHolds {stage : Stage} {rest : Nat}
    (holds : (contract.lockstep levels).Holds stage rest (fun values => promised (values ()))
      fun _ => production) : Keeps contract levels promised production := by
  intro reader stands
  cases holds (fun _ => reader) stands with
  | halt ran halting =>
      rw [show production reader = _ from ran ()]
      exact halting
  | done ran moves ends =>
      rw [show production reader = _ from ran ()]
      exact ⟨ends.1, moves, ends.2⟩

theorem done {value : α} (promise : promised value) :
    Keeps contract levels promised (pure value) :=
  fun reader stands => ⟨stands, .refl reader, promise⟩

theorem bind {first : Parse α} {second : α → Parse β} (one : Keeps contract levels promised first)
    (two : ∀ value, promised value → Keeps contract levels further (second value)) :
    Keeps contract levels further (first >>= second) :=
  ofHolds ((contract.lockstep_lawful levels).bind (one.holds (.behind 0) 0)
    fun values promise => (two (values ()) promise).holds _ 0)

theorem ofStep {step : Parse Token}
    (stepped : ∀ {reader}, contract.Admits reader → contract.Stepped (step reader))
    (moved : ∀ reader, Moved reader (left (step reader))) :
    Keeps contract levels contract.token step :=
  @ofHolds _ _ _ _ _ (.behind 0) 0 fun _ stands => (stepped stands).runs (moved _)

theorem peek : Keeps contract levels contract.token Parse.peek :=
  ofStep Contract.stepped_peek moved_peek

theorem advance : Keeps contract levels contract.token Parse.advance :=
  ofStep Contract.stepped_advance moved_advance

theorem peekKind : Keeps contract levels (fun _ => True) Parse.peekKind :=
  peek.bind fun _ _ => done trivial

theorem hasTokens : Keeps contract levels (fun _ => True) Parse.hasTokens :=
  peekKind.bind fun _ _ => done trivial

theorem expectOneOf (kinds : List TokenKind) :
    Keeps contract levels contract.token (Parse.expectOneOf kinds) := by
  apply peek.bind
  intro shown fits
  by_cases member : shown.kind ∈ kinds
  · rw [if_pos member]
    exact advance
  · rw [if_neg member]
    exact fun reader stands => ⟨contract.abandoned stands, .refl reader, contract.blamed fits rfl⟩

theorem tooDeep (limit : Nat) : Keeps contract levels promised (Parse.tooDeep limit) :=
  ofHolds (@Discipline.tooDeep _ _ (contract.lockstep_lawful levels).discipline _ 0 0 limit)

end Keeps

end Parse

/-- Inner productions that keep the contract and open at most so many levels. -/
structure Productions.Keep (contract : Contract) (levels : Nat) (inner : Productions) : Prop where
  statement : inner.statement.Keeps contract levels contract.Placed
  expression : ∀ power, (inner.expression power).Keeps contract levels contract.Sound

theorem Productions.Keep.obey {contract : Contract} {levels : Nat} {inner : Productions}
    (keep : inner.Keep contract levels) (bound : Nat) :
    Obey (contract.lockstep_lawful levels).discipline bound fun _ => inner :=
  ⟨fun _ => keep.statement.holds _ _, fun power _ => (keep.expression power).holds _ _⟩

namespace Parse.Keeps

variable {contract : Contract} {levels : Nat} {inner : Productions}
  (keep : inner.Keep contract levels)
include keep

theorem grouping : Keeps contract levels contract.Sound (Parse.grouping inner) :=
  ofHolds ((keep.obey 0).grouping (Nat.zero_le _))

theorem operand (rule : OperandRule) :
    Keeps contract levels contract.Sound (Parse.operand inner rule) :=
  ofHolds ((keep.obey 0).operand rule (Nat.zero_le _))

theorem binary {left : Expression} (sound : contract.Sound left) (power : Power) :
    Keeps contract levels contract.Sound (Parse.binary inner left power) :=
  ofHolds ((keep.obey 0).operator power .binary (advance.holds (.behind 0) 0) sound
    (Nat.le_refl _))

theorem expressionBody (power : Power) :
    Keeps contract levels contract.Sound (Parse.expressionBody inner power) :=
  ofHolds ((keep.obey 0).expressionBody power (Nat.zero_le _))

theorem conditional : Keeps contract levels contract.Placed (Parse.conditional inner) :=
  ofHolds ((keep.obey 0).conditional (Nat.zero_le _))

theorem loop : Keeps contract levels contract.Placed (Parse.loop inner) :=
  ofHolds ((keep.obey 0).loop (Nat.zero_le _))

theorem block : Keeps contract levels (fun value => contract.likeness.Whole fun _ => value)
    (Parse.block inner) :=
  ofHolds ((keep.obey 0).block (Nat.zero_le _))

theorem assignment : Keeps contract levels contract.Placed (Parse.assignment inner) :=
  ofHolds ((keep.obey 0).assignment (Nat.zero_le _))

theorem statementBody : Keeps contract levels contract.Placed (Parse.statementBody inner) :=
  ofHolds ((keep.obey 0).statementBody (Nat.zero_le _))

theorem programBlock : Keeps contract levels (fun value => contract.likeness.Whole fun _ => value)
    (Parse.programBlock inner) :=
  ofHolds ((keep.obey 0).programBlock (fun ⟨_, stands⟩ => contract.origin stands) (Nat.le_refl _))

end Parse.Keeps

/-- Productions that may open so many levels keep every contract. -/
theorem Productions.within_keep (contract : Contract) (limit levels : Nat) :
    (within limit levels).Keep contract levels := by
  have obey := Lockstep.within_obey contract.lockstep_lawful contract.lockstep_opens limit 0 levels
  exact ⟨.ofHolds (obey.statement (Nat.le_refl _)),
    fun power => .ofHolds (obey.expression power (Nat.le_refl _))⟩

/-- What a contract says about reading a whole source. -/
theorem parse_keeps (contract : Contract) {source : String} {file : Option String}
    (stands : contract.Admits (Reader.ofSource source file)) :
    match parse source file with
    | .ok root => contract.Allows root.positions
    | .error halt => contract.halt halt := by
  have kept := Parse.Keeps.programBlock
    (Productions.within_keep contract Parse.nestingLimit Parse.nestingLimit)
    (Reader.ofSource source file) stands
  cases read : Parse.programBlock (Productions.within Parse.nestingLimit Parse.nestingLimit)
      (Reader.ofSource source file) with
  | ok root after =>
      rw [read] at kept
      rw [parse_of_ok read]
      obtain ⟨_, _, whole⟩ := kept
      exact Contract.allows_append.mpr
        ⟨Contract.allows_span.mpr ⟨whole.start, whole.stop⟩, whole.body⟩
  | error halt after =>
      rw [read] at kept
      rw [parse_of_error read]
      exact kept.2.2

end Scriptlet
