import Scriptlet.Proofs.Session.Positions
import Scriptlet.Reader.Session

/-!
# What a session leaves as it was

Requests to a reader may fail anywhere, with productions open and a token looked at, and the session
goes on.  Whatever is asked, and however it ends, the depth comes back, the grammar changes where
rules are registered and nowhere else, and the cursor goes on in the same source, right behind the
lookahead (`perform_survives`).

Requests nest, so what one request keeps and what a list of requests keeps are shown together, with
how they halt.  All of this holds for every contract that a reader can go on with after an error.
-/

namespace Scriptlet

/-! ## Tables -/

/-- A place in the tables of a grammar.  Operators have their power in a table of its own. -/
inductive Entry where
  | statement (kind : TokenKind)
  | operand (kind : TokenKind)
  | operator (kind : TokenKind)
  deriving DecidableEq

namespace Grammar

/-- The grammars differ at most in these entries. -/
structure SameOutside (entries : List Entry) (grammar other : Grammar) : Prop where
  statements : ∀ kind, .statement kind ∉ entries → other.statements kind = grammar.statements kind
  operands : ∀ kind, .operand kind ∉ entries → other.operands kind = grammar.operands kind
  operators : ∀ kind, .operator kind ∉ entries → other.operators kind = grammar.operators kind
  powers : ∀ kind, .operator kind ∉ entries → other.powers kind = grammar.powers kind

/-- Exactly the operators have a power. -/
def Paired (grammar : Grammar) : Prop :=
  ∀ kind, (grammar.powers kind).isSome = (grammar.operators kind).isSome

variable {entries others : List Entry} {grammar middle other : Grammar}

theorem SameOutside.refl (grammar : Grammar) : SameOutside entries grammar grammar :=
  ⟨fun _ _ => rfl, fun _ _ => rfl, fun _ _ => rfl, fun _ _ => rfl⟩

theorem SameOutside.trans (first : SameOutside entries grammar middle)
    (second : SameOutside others middle other) : SameOutside (entries ++ others) grammar other := by
  constructor
  · intro kind outside
    rw [List.mem_append, not_or] at outside
    rw [second.statements kind outside.2, first.statements kind outside.1]
  · intro kind outside
    rw [List.mem_append, not_or] at outside
    rw [second.operands kind outside.2, first.operands kind outside.1]
  · intro kind outside
    rw [List.mem_append, not_or] at outside
    rw [second.operators kind outside.2, first.operators kind outside.1]
  · intro kind outside
    rw [List.mem_append, not_or] at outside
    rw [second.powers kind outside.2, first.powers kind outside.1]

theorem sameOutside_registerStatement (grammar : Grammar) (kind : TokenKind)
    (rule : StatementRule) :
    SameOutside [.statement kind] grammar (grammar.registerStatement kind rule) where
  statements other outside :=
    grammar.statements.register_of_ne rule fun same => outside (by simp [same])
  operands _ _ := rfl
  operators _ _ := rfl
  powers _ _ := rfl

theorem sameOutside_registerOperand (grammar : Grammar) (kind : TokenKind) (rule : OperandRule) :
    SameOutside [.operand kind] grammar (grammar.registerOperand kind rule) where
  statements _ _ := rfl
  operands other outside :=
    grammar.operands.register_of_ne rule fun same => outside (by simp [same])
  operators _ _ := rfl
  powers _ _ := rfl

theorem sameOutside_registerOperator (grammar : Grammar) (kind : TokenKind) (power : Power)
    (rule : OperatorRule) :
    SameOutside [.operator kind] grammar (grammar.registerOperator kind power rule) where
  statements _ _ := rfl
  operands _ _ := rfl
  operators other outside :=
    grammar.operators.register_of_ne rule fun same => outside (by simp [same])
  powers other outside :=
    grammar.powers.register_of_ne power fun same => outside (by simp [same])

theorem paired_standard : standard.Paired := by
  intro kind
  simp [standard]

/-- An operator is registered in both tables at once. -/
theorem Paired.registerOperator (paired : grammar.Paired) (kind : TokenKind) (power : Power)
    (rule : OperatorRule) : (grammar.registerOperator kind power rule).Paired := by
  intro other
  simp only [Grammar.registerOperator, Table.register]
  split
  · rfl
  · exact paired other

end Grammar

namespace Reader

mutual

/-- The entries that a request may change. -/
def Request.registers : Request → List Entry
  | .registerStatement kind _ => [.statement kind]
  | .registerOperand kind _ => [.operand kind]
  | .registerOperator kind _ _ => [.operator kind]
  | .nested requests => registersAll requests
  | _ => []
  termination_by structural request => request

/-- The entries that a list of requests may change. -/
def registersAll : List Request → List Entry
  | [] => []
  | request :: requests => request.registers ++ registersAll requests
  termination_by structural requests => requests

end

mutual

/-- The halts in a reply, those inside nested blocks included. -/
def Reply.halts : Reply → List Halt
  | .halted halt => [halt]
  | .nested replies => haltsAll replies
  | _ => []
  termination_by structural reply => reply

/-- The halts in a list of replies. -/
def haltsAll : List Reply → List Halt
  | [] => []
  | reply :: replies => reply.halts ++ haltsAll replies
  termination_by structural replies => replies

end

end Reader

/-! ## One request -/

/-- After an error, the reader can go on under the same contract. -/
def Contract.Resumes (contract : Contract) : Prop :=
  ∀ cursor lookahead, contract.abandons cursor lookahead → contract.admits cursor lookahead

/-- The contract that asks for nothing. -/
def Contract.any : Contract where
  admits _ _ := True
  abandons _ _ := True
  token _ := True
  point _ := True
  halt _ := True
  abandoned _ := trivial
  held _ := trivial
  used _ := trivial
  read _ _ _ := trivial
  fault _ _ _ := ⟨trivial, trivial⟩
  ended _ _ := trivial
  points _ _ _ := trivial
  blamed _ _ := trivial
  endless := trivial
  origin _ := trivial

theorem Contract.any_resumes : Contract.any.Resumes := fun _ _ stands => stands

/-- The production comes back to the depth where it began, however it ends. -/
def Parse.Balanced {α : Type} (production : Parse α) : Prop :=
  ∀ reader, (left (production reader)).depth = reader.depth

theorem Parse.Keeps.balanced {α : Type} {levels : Nat} {promised : α → Prop}
    {production : Parse α} (keeps : production.Keeps .any levels promised) :
    production.Balanced := by
  intro reader
  have kept := keeps reader trivial
  cases ends : production reader with
  | ok value after =>
      rw [ends] at kept
      exact kept.2.1.depth
  | error halt after =>
      rw [ends] at kept
      exact kept.2.1.depth

namespace Reader

variable {α : Type} {contract : Contract} {entries others : List Entry}
  {reader middle after : Reader}

/-- A nested block runs its requests between entering a level and leaving it. -/
theorem perform_nested (requests : List Request) (room : reader.depth < Parse.nestingLimit) :
    reader.perform (.nested requests) = (.nested (reader.entered.performAll requests).1,
      (reader.entered.performAll requests).2.exited) := by
  simp only [perform, Reader.ask, Parse.nested, if_pos room, Parse.opened]
  rfl

/-- What is left after requests that may change these entries. -/
structure Stepped (contract : Contract) (entries : List Entry) (reader after : Reader) : Prop where
  admits : contract.Admits after
  depth : after.depth = reader.depth
  rises : reader.deepest ≤ after.deepest
  deepest : after.deepest ≤ max reader.deepest (reader.depth + (Parse.nestingLimit - reader.depth))
  grammar : reader.grammar.SameOutside entries after.grammar
  paired : reader.grammar.Paired → after.grammar.Paired

namespace Stepped

theorem refl (stands : contract.Admits reader) : Stepped contract entries reader reader :=
  ⟨stands, rfl, Nat.le_refl _, Nat.le_max_left _ _, .refl _, id⟩

theorem trans (first : Stepped contract entries reader middle)
    (second : Stepped contract others middle after) :
    Stepped contract (entries ++ others) reader after where
  admits := second.admits
  depth := second.depth.trans first.depth
  rises := Nat.le_trans first.rises second.rises
  deepest := by
    have upper := second.deepest
    have lower := first.deepest
    rw [first.depth] at upper
    omega
  grammar := first.grammar.trans second.grammar
  paired paired := second.paired (first.paired paired)

theorem ofFramed (stands : contract.Admits after)
    (framed : reader.Framed (Parse.nestingLimit - reader.depth) after) :
    Stepped contract [] reader after where
  admits := stands
  depth := framed.depth
  rises := framed.rises
  deepest := framed.deepest
  grammar := by
    rw [framed.grammar]
    exact .refl _
  paired paired := by rwa [framed.grammar]

/-- A level that is left from where it was entered. -/
theorem leave (room : reader.depth < Parse.nestingLimit)
    (inside : Stepped contract entries reader.entered after) :
    Stepped contract entries reader after.exited := by
  have depth : after.depth = reader.depth + 1 := inside.depth
  have rises : max reader.deepest (reader.depth + 1) ≤ after.deepest := inside.rises
  have deepest : after.deepest ≤ max (max reader.deepest (reader.depth + 1))
      (reader.depth + 1 + (Parse.nestingLimit - (reader.depth + 1))) := inside.deepest
  refine ⟨inside.admits, ?_, ?_, ?_, inside.grammar, inside.paired⟩ <;> simp only [exited] <;> omega

/-- Changing the grammar changes nothing else. -/
theorem learn (stands : contract.Admits reader) {change : Grammar → Grammar}
    (same : reader.grammar.SameOutside entries (change reader.grammar))
    (paired : reader.grammar.Paired → (change reader.grammar).Paired) :
    Stepped contract entries reader (reader.learn change).2 :=
  ⟨stands, rfl, Nat.le_refl _, Nat.le_max_left _ _, same, paired⟩

end Stepped

/-- What is left after requests that may change these entries, and that halted so. -/
structure Answered (contract : Contract) (entries : List Entry) (reader : Reader)
    (halts : List Halt) (after : Reader) : Prop
    extends Stepped contract entries reader after where
  halts : ∀ halt ∈ halts, contract.halt halt

namespace Answered

variable {halts further : List Halt}

theorem quiet (stepped : Stepped contract entries reader after) :
    Answered contract entries reader [] after := ⟨stepped, by simp⟩

theorem trans (first : Answered contract entries reader halts middle)
    (second : Answered contract others middle further after) :
    Answered contract (entries ++ others) reader (halts ++ further) after :=
  ⟨first.toStepped.trans second.toStepped, List.forall_mem_append.mpr ⟨first.halts, second.halts⟩⟩

theorem widen (answered : Answered contract [] reader halts after) :
    Answered contract entries reader halts after :=
  ⟨answered.toStepped.trans (.refl answered.admits), answered.halts⟩

variable (resumes : contract.Resumes)
include resumes

/-- A production that keeps the contract may be asked for in a session. -/
theorem ask {promised : α → Prop} {computation production : Parse α} {reply : α → Reply}
    (stands : contract.Admits reader) (ran : computation reader = production reader)
    (keeps : production.Keeps contract (Parse.nestingLimit - reader.depth) promised)
    (silent : ∀ value, promised value → (reply value).halts = []) :
    Answered contract [] reader (reader.ask computation reply).1.halts
      (reader.ask computation reply).2 := by
  have kept := keeps reader stands
  rw [Reader.ask, ran]
  cases ends : production reader with
  | ok value after =>
      rw [ends] at kept
      dsimp only
      rw [silent value kept.2.2]
      exact quiet (.ofFramed kept.1 kept.2.1)
  | error halt after =>
      rw [ends] at kept
      exact ⟨.ofFramed (resumes _ _ kept.1) kept.2.1, List.forall_mem_singleton.mpr kept.2.2⟩

/-- A production that is started with the levels that the reader has left. -/
theorem start {promised : α → Prop} {production : Productions → Parse α} {reply : α → Reply}
    (stands : contract.Admits reader)
    (keeps : ∀ {inner : Productions},
      inner.Keep contract (Parse.nestingLimit - reader.depth) →
      (production inner).Keeps contract (Parse.nestingLimit - reader.depth) promised)
    (silent : ∀ value, promised value → (reply value).halts = []) :
    Answered contract [] reader
      (reader.ask (Parse.start Parse.nestingLimit production) reply).1.halts
      (reader.ask (Parse.start Parse.nestingLimit production) reply).2 := by
  refine ask resumes stands ?_ (keeps (Productions.within_keep contract Parse.nestingLimit _))
    silent
  rfl

/-- The operand in front of an operator leaves the depth as it is, so both are read with the same
levels left. -/
theorem afterPrimary (stands : contract.Admits reader) (power : Power) :
    Answered contract [] reader (reader.ask (Parse.afterPrimary power) .expression).1.halts
      (reader.ask (Parse.afterPrimary power) .expression).2 := by
  have keep := Productions.within_keep contract Parse.nestingLimit
    (Parse.nestingLimit - reader.depth)
  have keeps : (Parse.primary >>= fun left => Parse.binary (Productions.within Parse.nestingLimit
      (Parse.nestingLimit - reader.depth)) left power).Keeps contract
        (Parse.nestingLimit - reader.depth) contract.Sound :=
    (Parse.Keeps.operand keep .primary).bind fun _ sound => Parse.Keeps.binary keep sound power
  refine ask resumes stands ?_ keeps fun _ _ => rfl
  have kept := Parse.Keeps.operand keep .primary reader stands
  simp only [Parse.operand] at kept
  rw [Parse.afterPrimary]
  cases ran : Parse.primary reader with
  | error halt after => rw [Parse.bind_of_error ran, Parse.bind_of_error ran]
  | ok left after =>
      rw [ran] at kept
      rw [Parse.bind_of_ok ran, Parse.bind_of_ok ran, Parse.start, kept.2.1.depth]

/-- Requests one level further in. -/
theorem nested {requests : List Request} (stands : contract.Admits reader)
    (inside : ∀ deeper : Reader, contract.Admits deeper →
      Answered contract entries deeper (haltsAll (deeper.performAll requests).1)
        (deeper.performAll requests).2) :
    Answered contract entries reader (reader.perform (.nested requests)).1.halts
      (reader.perform (.nested requests)).2 := by
  by_cases room : reader.depth < Parse.nestingLimit
  · rw [perform_nested requests room]
    have inner := inside reader.entered stands
    exact ⟨.leave room inner.toStepped, inner.halts⟩
  -- At the limit the block is refused, and none of its requests is put to the reader.
  · rw [perform]
    have keeps : (Parse.tooDeep Parse.nestingLimit).Keeps contract
        (Parse.nestingLimit - reader.depth) fun _ : List Reply => False := .tooDeep _
    exact widen (ask resumes stands (if_neg room) keeps fun _ impossible => impossible.elim)

end Answered

mutual

/-- How one request is answered. -/
theorem perform_answered (resumes : contract.Resumes) :
    (request : Request) → (reader : Reader) → contract.Admits reader →
      Answered contract request.registers reader (reader.perform request).1.halts
        (reader.perform request).2
  | .file, _, stands => .quiet (.refl stands)
  | .peek, _, stands => .ask resumes stands rfl .peek fun _ _ => rfl
  | .peekKind, _, stands => .ask resumes stands rfl .peekKind fun _ _ => rfl
  | .advance, _, stands => .ask resumes stands rfl .advance fun _ _ => rfl
  | .hasTokens, _, stands => .ask resumes stands rfl .hasTokens fun _ _ => rfl
  | .expect kind, _, stands => .ask resumes stands rfl (.expectOneOf [kind]) fun _ _ => rfl
  | .expectOneOf kinds, _, stands => .ask resumes stands rfl (.expectOneOf kinds) fun _ _ => rfl
  | .statement, _, stands => .start resumes stands Productions.Keep.statement fun _ _ => rfl
  | .expression power, _, stands =>
      .start resumes stands (fun keep => keep.expression power) fun _ _ => rfl
  | .conditional, _, stands => .start resumes stands Parse.Keeps.conditional fun _ _ => rfl
  | .loop, _, stands => .start resumes stands Parse.Keeps.loop fun _ _ => rfl
  | .assignment, _, stands => .start resumes stands Parse.Keeps.assignment fun _ _ => rfl
  | .block, _, stands => .start resumes stands Parse.Keeps.block fun _ _ => rfl
  | .program, _, stands => .start resumes stands Parse.Keeps.programBlock fun _ _ => rfl
  | .primary, _, stands =>
      .start resumes stands (fun keep => Parse.Keeps.operand keep .primary) fun _ _ => rfl
  | .reference, _, stands =>
      .start resumes stands (fun keep => Parse.Keeps.operand keep .reference) fun _ _ => rfl
  | .unary, _, stands =>
      .start resumes stands (fun keep => Parse.Keeps.operand keep .unary) fun _ _ => rfl
  | .grouping, _, stands => .start resumes stands Parse.Keeps.grouping fun _ _ => rfl
  | .binary power, _, stands => .afterPrimary resumes stands power
  | .nested requests, _, stands => .nested resumes stands (performAll_answered resumes requests)
  | .registerStatement kind rule, reader, stands =>
      .quiet (.learn stands (reader.grammar.sameOutside_registerStatement kind rule) id)
  | .registerOperand kind rule, reader, stands =>
      .quiet (.learn stands (reader.grammar.sameOutside_registerOperand kind rule) id)
  | .registerOperator kind power rule, reader, stands =>
      .quiet (.learn stands (reader.grammar.sameOutside_registerOperator kind power rule)
        fun paired => paired.registerOperator kind power rule)
  | .grammar, _, stands => .quiet (.refl stands)
  termination_by structural request => request

/-- How a list of requests is answered. -/
theorem performAll_answered (resumes : contract.Resumes) :
    (requests : List Request) → (reader : Reader) → contract.Admits reader →
      Answered contract (registersAll requests) reader (haltsAll (reader.performAll requests).1)
        (reader.performAll requests).2
  | [], _, stands => .quiet (.refl stands)
  | request :: requests, reader, stands =>
      have first := perform_answered resumes request reader stands
      first.trans (performAll_answered resumes requests _ first.admits)
  termination_by structural requests => requests

end

/-- What one request leaves. -/
theorem perform_stepped (resumes : contract.Resumes) (request : Request) (reader : Reader)
    (stands : contract.Admits reader) :
    Stepped contract request.registers reader (reader.perform request).2 :=
  (perform_answered resumes request reader stands).toStepped

/-- What a list of requests leaves. -/
theorem performAll_stepped (resumes : contract.Resumes) (requests : List Request)
    (reader : Reader) (stands : contract.Admits reader) :
    Stepped contract (registersAll requests) reader (reader.performAll requests).2 :=
  (performAll_answered resumes requests reader stands).toStepped

/-! ## Sessions -/

/-- The readers that a session on a source comes to, inside so many nested blocks. -/
inductive Reached (source : String) (file : Option String) : Nat → Reader → Prop where
  | start : Reached source file 0 (ofSource source file)
  | perform {level : Nat} {reader : Reader} (request : Request) :
      Reached source file level reader → Reached source file level (reader.perform request).2
  | enter {level : Nat} {reader : Reader} :
      Reached source file level reader → reader.depth < Parse.nestingLimit →
      Reached source file (level + 1) reader.entered

variable {source : String} {file : Option String} {level bound : Nat}

theorem inSource_resumes : (Contract.inSource source file bound).Resumes := fun _ _ holds => holds

/-- What is true of every reader that a session comes to. -/
structure Fit (source : String) (file : Option String) (level : Nat) (reader : Reader) : Prop where
  holds : reader.cursor.Holds source file 0 reader.lookahead
  depth : reader.depth = level
  within : reader.depth ≤ reader.deepest
  deepest : reader.deepest ≤ Parse.nestingLimit
  paired : reader.grammar.Paired

/-- Every reader that a session comes to is fit to go on with. -/
theorem Reached.fit (reached : Reached source file level reader) :
    reader.Fit source file level := by
  induction reached with
  | start =>
      refine ⟨⟨Cursor.standsIn_ofSource source file, Nat.zero_le _, ?_, ?_⟩, rfl, Nat.le_refl _,
        Nat.zero_le _, Grammar.paired_standard⟩
      · rintro _ ⟨⟩
      · rintro _ ⟨⟩
  | @perform level reader request _ ih =>
      have stepped := perform_stepped inSource_resumes request reader ih.holds
      have rises := stepped.rises
      have deepest := stepped.deepest
      have within := ih.within
      have bounded := ih.deepest
      refine ⟨stepped.admits, stepped.depth.trans ih.depth, ?_, ?_, stepped.paired ih.paired⟩
      · rw [stepped.depth]
        omega
      · omega
  | @enter level reader _ room ih =>
      have bounded := ih.deepest
      refine ⟨ih.holds, congrArg Nat.succ ih.depth, Nat.le_max_right _ _, ?_, ih.paired⟩
      simp only [entered]
      omega

/-- What a request leaves as it was, however it ended.  As `deepest` is the most that was ever open,
a bound on it holds of the depth at any time. -/
structure Survives (source : String) (file : Option String) (level : Nat) (reader : Reader)
    (request : Request) (after : Reader) : Prop where
  level : reader.depth = level
  depth : after.depth = reader.depth
  deepest : reader.deepest ≤ after.deepest ∧ after.deepest ≤ Parse.nestingLimit
  grammar : reader.grammar.SameOutside request.registers after.grammar
  paired : after.grammar.Paired
  source : after.cursor.rest = source.toList.drop after.cursor.place.offset
  file : after.cursor.file = file.getD Cursor.unnamed
  forward : reader.cursor.place.offset ≤ after.cursor.place.offset
  adjacent : ∀ token, after.lookahead = some token → token.span.stop = after.cursor.position

end Reader

/-- A session that goes on after errors finds everything as it was, apart from what it asked to
change.  The last three parts say that no level is ever left that was not entered: whatever is run
one level further in comes back to the depth where it began. -/
theorem perform_survives {source : String} {file : Option String} {level : Nat} {reader : Reader}
    (reached : Reader.Reached source file level reader) (request : Reader.Request) :
    reader.Survives source file level request (reader.perform request).2 ∧
      (∀ levels, Parse.Balanced
        (Parse.statementBody (Productions.within Parse.nestingLimit levels))) ∧
      (∀ levels power, Parse.Balanced
        (Parse.expressionBody (Productions.within Parse.nestingLimit levels) power)) ∧
      ∀ requests, Parse.Balanced fun inside =>
        let (replies, after) := inside.performAll requests
        .ok replies after := by
  have fit := reached.fit
  have stands : (Contract.inSource source file reader.cursor.place.offset).Admits reader :=
    ⟨fit.holds.stands, Nat.le_refl _, fit.holds.adjacent, fit.holds.reported⟩
  have stepped := Reader.perform_stepped Reader.inSource_resumes request reader stands
  have later := (reached.perform request).fit
  refine ⟨⟨fit.depth, stepped.depth, ⟨stepped.rises, later.deepest⟩, stepped.grammar, later.paired,
    stepped.admits.stands.rest_eq, stepped.admits.stands.file_eq, stepped.admits.beyond,
    stepped.admits.adjacent⟩, ?_, ?_, ?_⟩
  · intro levels
    exact (Parse.Keeps.statementBody (Productions.within_keep .any _ levels)).balanced
  · intro levels power
    exact (Parse.Keeps.expressionBody (Productions.within_keep .any _ levels) power).balanced
  · intro requests inside
    exact (Reader.performAll_stepped Contract.any_resumes requests inside trivial).depth

/-- A statement fails and leaves a token looked at.  In a block the session registers a rule, opens
another block, and fails again in there. -/
theorem perform_survives_failures :
    ∃ reader, Reader.Reached "if ($x $y = 1;" none 1 reader ∧ reader.lookahead.isSome = true ∧
      reader.Survives "if ($x $y = 1;" none 1
        (.nested [.statement, .registerOperator .assign .additive .binary, .loop])
        (reader.perform
          (.nested [.statement, .registerOperator .assign .additive .binary, .loop])).2 := by
  have begun := @Reader.Reached.start "if ($x $y = 1;" none
  have inside := (begun.perform .statement).enter (by decide +kernel)
  have reached := inside.perform (.registerOperand .semicolon .primary)
  exact ⟨_, reached, by decide +kernel, (perform_survives reached _).1⟩

end Scriptlet
