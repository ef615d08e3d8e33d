import Scriptlet.Proofs.Composition.Sequence
import Scriptlet.Proofs.Derivation.Else

/-!
# Statements that are shut

A statement that is not open is shut by its last token.  It is then known to be finished without a
look behind it, which shows in three ways: no lookahead is left (`Parse.within_leaves`), anything at
all may follow the statement (`From.detach_shut`), and not even a fault behind it can keep it from
being read (`Parse.within_prompt`).  Open statements have to look for an `else`.
-/

namespace Scriptlet

/-! ## What is left in view -/

namespace Parse

variable {α β : Type} {before : Bool → Prop}

/-- Begun with or without a token in view, as `before` tells, a production that succeeds leaves one
or none, as `after` tells of its value. -/
def Leaves (before : Bool → Prop) (production : Parse α) (after : α → Bool → Prop) : Prop :=
  ∀ (reader last : Reader) (value : α), before reader.lookahead.isSome →
    production reader = .ok value last → after value last.lookahead.isSome

namespace Leaves

variable {middle : α → Bool → Prop} {after : β → Bool → Prop}

theorem done {value : α} (told : ∀ held, before held → middle value held) :
    Leaves before (pure value) middle := by
  intro reader last result known ran
  cases ran
  exact told _ known

theorem halted {halt : Halt} : Leaves before (throw halt) middle := by
  intro reader last result known ran
  cases ran

theorem bind {first : Parse α} {second : α → Parse β} (one : Leaves before first middle)
    (two : ∀ value, Leaves (middle value) (second value) after) :
    Leaves before (first >>= second) after := by
  intro reader last result known ran
  cases step : first reader with
  | error halt between => cases (bind_of_error step).symm.trans ran
  | ok value between =>
      rw [bind_of_ok step] at ran
      exact two value between last result (one reader between value known step) ran

/-- Of most steps nothing has to be known, because a later one decides. -/
theorem behind (first : Parse α) {second : α → Parse β}
    (two : ∀ value, Leaves (fun _ => True) (second value) after) :
    Leaves before (first >>= second) after :=
  @bind _ _ _ (fun _ _ => True) _ _ _ (fun _ _ _ _ _ => trivial) two

theorem advance : Leaves before advance fun _ held => held = false := by
  intro reader last token known ran
  rw [Reader.advance_lookahead ran]
  rfl

theorem peek : Leaves before peek fun _ held => held = true := by
  intro reader last token known ran
  rw [(peek_keeps ran).1]
  rfl

theorem lookKind {next : TokenKind → Parse β}
    (further : ∀ kind, Leaves (· = true) (next kind) after) :
    Leaves before (peekKind >>= next) after := by
  simp only [peekKind, bind_assoc, pure_bind]
  exact bind peek fun token => further token.kind

theorem ask {next : Reader → Parse β} (further : ∀ reader, Leaves before (next reader) after) :
    Leaves before (get >>= next) after := by
  intro reader last value known ran
  exact further reader reader last value known ran

theorem expectOneOf (kinds : List TokenKind) :
    Leaves before (expectOneOf kinds) fun _ held => held = false := by
  refine behind Parse.peek fun token => ?_
  by_cases member : token.kind ∈ kinds
  · rw [if_pos member]
    exact advance
  · rw [if_neg member]
    exact halted

theorem expect (kind : TokenKind) : Leaves before (expect kind) fun _ held => held = false :=
  expectOneOf [kind]

theorem opened {production : Parse α} (inside : Leaves before production middle) :
    Leaves before (opened production) middle := by
  intro reader last value known ran
  simp only [Parse.opened] at ran
  split at ran
  next result reached within =>
    cases ran
    refine inside _ reached value ?_ within
    exact known
  next => cases ran

theorem tooDeep (limit : Nat) : Leaves before (tooDeep limit) middle :=
  behind Parse.peek fun _ => halted

end Leaves

/-- The production leaves a token in view exactly behind statements that are open. -/
abbrev LeavesOpen (production : Parse Statement) : Prop :=
  Leaves (fun _ => True) production fun value held => held = value.isOpen

variable {inner : Productions}

/-- Alternatives look for a further `else`, unless a last branch has shut them. -/
theorem alternatives_leaves (statement : LeavesOpen inner.statement) (rounds : Nat) :
    Leaves (fun _ => True) (alternatives inner rounds) fun value held =>
      held = value.areOpen := by
  induction rounds with
  | zero => exact .halted
  | succ rounds ih =>
      refine .lookKind fun kind => ?_
      by_cases begins : kind = .elseWord
      · rw [if_pos begins]
        refine .behind advance fun _ => .behind peekKind fun second => ?_
        by_cases asks : second = .ifWord
        · rw [if_pos asks]
          exact .behind advance fun _ => .behind (condition inner) fun _ =>
            .behind inner.statement fun _ => .bind ih fun _ => .done fun _ known => known
        · rw [if_neg asks]
          exact .bind statement fun _ => .done fun _ known => known
      · rw [if_neg begins]
        exact .done fun _ known => known

theorem statementBy_leaves (statement : LeavesOpen inner.statement) (rule : StatementRule) :
    LeavesOpen (statementBy inner rule) := by
  cases rule with
  | conditional =>
      exact .behind (expect .ifWord) fun _ => .behind (condition inner) fun _ =>
        .behind inner.statement fun _ => .behind rounds fun _ =>
        .bind (alternatives_leaves statement _) fun _ => .done fun _ known => known
  | loop =>
      exact .behind (expect .whileWord) fun _ => .behind (condition inner) fun _ =>
        .bind statement fun _ => .done fun _ known => known
  | block =>
      simp only [statementBy, block, bind_assoc, pure_bind]
      exact .behind (expect .openCurly) fun _ => .behind rounds fun _ =>
        .behind (statements inner _) fun _ => .bind (.expect .closeCurly) fun _ =>
        .done fun _ known => known
  | assignment =>
      exact .behind (expectOneOf TokenKind.identifiers) fun _ => .behind (expect .assign) fun _ =>
        .behind (inner.expression .lowest) fun _ => .bind (.expect .semicolon) fun _ =>
        .done fun _ known => known

theorem within_leaves (limit levels : Nat) :
    LeavesOpen (Productions.within limit levels).statement := by
  induction levels with
  | zero => exact .tooDeep limit
  | succ levels ih =>
      exact .opened (.behind peekKind fun _ => .ask fun _ => statementBy_leaves ih _)

end Parse

/-! ## What may follow -/

/-- Two lists begin alike if they have the same tokens in front. -/
theorem BeginsLike.behind {used : List Token} (some : used ≠ []) (tokens others : List Token) :
    BeginsLike (used ++ tokens) (used ++ others) := by
  cases used with
  | nil => exact absurd rfl some
  | cons token used => exact .cons token _ _

namespace Part

/-- The part is finished where it ends. -/
def Shut : Part → Prop
  | .statement value => value.isOpen = false
  | .alternatives value => value.areOpen = false
  | _ => False

namespace From

variable {part : Part} {levels : Nat} {tokens rest : List Token}

theorem ne_nil_of_statement {statement : Statement}
    (derives : (Part.statement statement).From levels tokens rest) : tokens ≠ [] := by
  rintro rfl
  exact absurd derives.length_lt (Nat.not_lt_zero _)

theorem ne_nil_of_shut {alternatives : Alternatives}
    (derives : (Part.alternatives alternatives).From levels tokens rest)
    (shut : alternatives.areOpen = false) : tokens ≠ [] := by
  cases derives with
  | nothing => cases shut
  | otherwise | elseIf => exact List.cons_ne_nil _ _

/-- Anything may follow a part that is shut, even an `else`. -/
theorem detach_shut (derives : part.From levels tokens rest) (shut : part.Shut) :
    ∃ used, tokens = used ++ rest ∧ used ≠ [] ∧ Closed used ∧
      ∀ others, part.From levels (used ++ others) others := by
  -- Only the part that comes last has to be shut.  Those before it are followed by its tokens.
  induction derives with
  | literal | name | call | unary | grouped | group | last | further | expression => cases shut
  | nothing | nil | cons => cases shut
  | @assignment _ target equals closing _ _ rest named sets given closes _ =>
      rcases given.replace with ⟨used, rfl, moved⟩
      refine ⟨target :: equals :: used ++ [closing], by simp, by simp,
        .concat (by rw [closes]; rfl) _, fun others => ?_⟩
      have again := moved (closing :: others) (.cons closing rest others)
      simpa using assignment named sets again closes
  | @block _ opening closing _ _ rest opens inner closes _ =>
      rcases inner.replace with ⟨used, rfl, moved⟩
      refine ⟨opening :: used ++ [closing], by simp, by simp,
        .concat (by rw [closes]; rfl) _, fun others => ?_⟩
      simpa using block opens (moved (closing :: others) (.cons closing rest others)) closes
  | @conditional _ start _ _ _ _ _ _ rest begins asked first _ _ _ othersIH =>
      rcases othersIH shut with ⟨behind, rfl, some, closed, chain⟩
      rcases first.replace with ⟨inside, rfl, branch⟩
      rcases asked.replace with ⟨ahead, rfl, condition⟩
      refine ⟨start :: ahead ++ inside ++ behind, by simp, by simp, closed.after some _,
        fun others => ?_⟩
      have alike := BeginsLike.behind some rest others
      simpa using conditional begins (condition _ (alike.append inside)) (branch _ alike)
        (chain others)
  | @loop _ start _ _ _ _ rest begins asked _ _ bodyIH =>
      rcases bodyIH shut with ⟨inside, rfl, some, closed, body⟩
      rcases asked.replace with ⟨ahead, rfl, condition⟩
      refine ⟨start :: ahead ++ inside, by simp, by simp, closed.after some _, fun others => ?_⟩
      simpa using loop begins (condition _ (.behind some rest others)) (body others)
  | @otherwise _ start _ _ rest begins bare _ ih =>
      rcases ih shut with ⟨inside, rfl, some, closed, branch⟩
      refine ⟨[start] ++ inside, rfl, by simp, closed.after some _, fun others => ?_⟩
      exact .otherwise begins (bare.of_beginsLike (.behind some rest others)) (branch others)
  | @elseIf _ start second _ _ _ _ _ _ rest begins asks asked inner _ _ _ othersIH =>
      rcases othersIH shut with ⟨behind, rfl, some, closed, chain⟩
      rcases inner.replace with ⟨inside, rfl, branch⟩
      rcases asked.replace with ⟨ahead, rfl, condition⟩
      refine ⟨start :: second :: ahead ++ inside ++ behind, by simp, by simp,
        closed.after some _, fun others => ?_⟩
      have alike := BeginsLike.behind some rest others
      simpa using elseIf begins asks (condition _ (alike.append inside)) (branch _ alike)
        (chain others)

end From

end Part

/-! ## What may go wrong behind -/

namespace Parse

variable {α β : Type} {ending : Except Diagnostic Token} {tokens rest : List Token}

/-- The production reads the value and leaves the tokens, even if there are none and the ending is a
fault. -/
def Surely (ending : Except Diagnostic Token) (tokens : List Token) (production : Parse α)
    (value : α) (rest : List Token) : Prop :=
  ∀ reader : Reader, reader.Reads tokens ending →
    ∃ after, production reader = .ok value after ∧ after.Reads rest ending

namespace Surely

variable {value : α} {result : β} {middle : List Token}

/-- A production that leaves tokens does not come to the ending. -/
theorem ofExact {production : Parse α} {reading : α → List Token → Prop}
    (exact : Exact ending tokens production reading) (reads : reading value rest)
    (left : rest ≠ []) : Surely ending tokens production value rest := by
  intro reader stands
  have gives := exact.complete stands reads
  revert gives
  generalize production reader = run
  intro gives
  cases gives with
  | done still => exact ⟨_, rfl, still⟩
  | cut nothing _ => exact absurd nothing left

theorem done (value : α) : Surely ending tokens (pure value) value tokens :=
  fun reader stands => ⟨reader, rfl, stands⟩

theorem bind {first : Parse α} {second : α → Parse β}
    (one : Surely ending tokens first value middle)
    (two : Surely ending middle (second value) result rest) :
    Surely ending tokens (first >>= second) result rest := by
  intro reader stands
  obtain ⟨between, ran, still⟩ := one reader stands
  obtain ⟨after, ends, left⟩ := two between still
  exact ⟨after, (bind_of_ok ran).trans ends, left⟩

theorem take (token : Token) : Surely ending (token :: rest) advance token rest :=
  fun _ stands => advance_of_cons stands

theorem look (token : Token) : Surely ending (token :: rest) peek token (token :: rest) :=
  fun _ stands => peek_of_current stands rfl

theorem lookKind (token : Token) :
    Surely ending (token :: rest) peekKind token.kind (token :: rest) :=
  bind (look token) (done token.kind)

theorem ask {next : Reader → Parse α}
    (further : ∀ reader : Reader, reader.Reads tokens ending →
      Surely ending tokens (next reader) value rest) :
    Surely ending tokens (get >>= next) value rest :=
  fun reader stands => further reader stands reader stands

theorem count {next : Nat → Parse α}
    (further : ∀ rounds, tokens.length < rounds →
      Surely ending tokens (next rounds) value rest) :
    Surely ending tokens (rounds >>= next) value rest := by
  simp only [rounds, bind_assoc, pure_bind]
  exact ask fun reader stands => further _ (Nat.lt_succ_of_le stands.length_le_unread)

theorem expectOneOf {kinds : List TokenKind} {token : Token} (member : token.kind ∈ kinds) :
    Surely ending (token :: rest) (expectOneOf kinds) token rest := by
  refine bind (look token) ?_
  rw [if_pos member]
  exact take token

theorem expect {token : Token} {kind : TokenKind} (same : token.kind = kind) :
    Surely ending (token :: rest) (expect kind) token rest :=
  expectOneOf (List.mem_singleton.mpr same)

theorem opened {production : Parse α} (inside : Surely ending tokens production value rest) :
    Surely ending tokens (opened production) value rest := by
  intro reader stands
  obtain ⟨after, ran, left⟩ := inside _ stands.deepen
  refine ⟨{ after with depth := after.depth - 1 }, ?_, left.of_same rfl rfl rfl⟩
  simp only [Parse.opened, ran]

end Surely

variable {inner : Productions} {levels : Nat}

/-- Inner statements that are shut are read without a look behind them. -/
def Prompt (ending : Except Diagnostic Token) (inner : Productions) (levels : Nat) : Prop :=
  ∀ tokens rest value, (Part.statement value).From levels tokens rest → value.isOpen = false →
    Surely ending tokens inner.statement value rest

section Inner

variable (parts : ReadsParts ending inner levels) (prompt : Prompt ending inner levels)
include parts prompt

theorem alternatives_surely {value : Alternatives}
    (derives : (Part.alternatives value).From levels tokens rest)
    (shut : value.areOpen = false) (rounds : Nat) (enough : tokens.length < rounds) :
    Surely ending tokens (alternatives inner rounds) value rest := by
  induction rounds generalizing tokens value with
  | zero => exact absurd enough (Nat.not_lt_zero _)
  | succ rounds ih =>
      cases derives with
      | nothing => cases shut
      | @otherwise _ start _ tokens _ begins bare inside =>
          obtain ⟨second, others, rfl⟩ := List.exists_cons_of_ne_nil inside.ne_nil_of_statement
          refine .bind (.lookKind start) ?_
          rw [if_pos begins]
          refine .bind (.take start) (.bind (.lookKind second) ?_)
          rw [if_neg (bare second rfl)]
          exact .bind (prompt _ _ _ inside shut) (.done _)
      | @elseIf _ start second _ _ _ _ _ later _ begins asks asked inside further =>
          have fewer : later.length < rounds := by
            have shorter := Nat.le_trans inside.length_le asked.length_le
            simp only [List.length_cons] at enough
            omega
          refine .bind (.lookKind start) ?_
          rw [if_pos begins]
          refine .bind (.take start) (.bind (.lookKind second) ?_)
          rw [if_pos asks]
          refine .bind (.take second) (.bind (.ofExact (grouping_exact parts _) asked ?_)
            (.bind (.ofExact (parts.statement _) inside ?_)
              (.bind (ih further shut fewer) (.done _))))
          · exact inside.ne_nil_of_statement
          · exact further.ne_nil_of_shut shut

theorem statementBy_surely {value : Statement}
    (derives : (Part.statement value).From (levels + 1) tokens rest)
    (shut : value.isOpen = false) :
    Surely ending tokens (statementBy inner value.rule) value rest := by
  cases derives with
  | assignment named sets given closes =>
      exact .bind (.expectOneOf named) (.bind (.expect sets)
        (.bind (.ofExact (parts.expression _ _) given (List.cons_ne_nil _ _))
          (.bind (.expect closes) (.done _))))
  | conditional begins asked first others =>
      refine .bind (.expect begins) (.bind (.ofExact (grouping_exact parts _) asked ?_)
        (.bind (.ofExact (parts.statement _) first ?_) (.count fun rounds enough =>
          .bind (alternatives_surely parts prompt others shut rounds enough) (.done _))))
      · exact first.ne_nil_of_statement
      · exact others.ne_nil_of_shut shut
  | loop begins asked repeats =>
      refine .bind (.expect begins) (.bind (.ofExact (grouping_exact parts _) asked ?_)
        (.bind (prompt _ _ _ repeats shut) (.done _)))
      exact repeats.ne_nil_of_statement
  | @block _ _ closing _ _ _ opens inside closes =>
      have stops : NextNot (· ≠ .closeCurly) (closing :: rest) := by
        rintro token ⟨⟩ other
        exact other closes
      simp only [Statement.rule, statementBy, block, bind_assoc, pure_bind]
      exact .bind (.expect opens) (.count fun rounds enough =>
        .bind (.ofExact (statements_exact parts rounds _ enough) ⟨inside, stops⟩
          (List.cons_ne_nil _ _))
        (.bind (.expect closes) (.done _)))

end Inner

/-- A fault behind a statement that is shut is never seen. -/
theorem within_prompt (ending : Except Diagnostic Token) (limit levels : Nat) :
    Prompt ending (Productions.within limit levels) levels := by
  induction levels with
  | zero =>
      intro tokens rest value derives
      cases derives
  | succ levels ih =>
      intro tokens rest value derives shut
      obtain ⟨token, others, rfl⟩ := List.exists_cons_of_ne_nil derives.ne_nil_of_statement
      refine .opened (.bind (.lookKind token) (.ask fun reader stands => ?_))
      rw [stands.grammar_eq, derives.rule_eq]
      exact statementBy_surely (within_readsParts ending limit levels) ih derives shut

end Parse

end Scriptlet
