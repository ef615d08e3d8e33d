import Scriptlet.Proofs.Reading.Expressions

/-!
# Statements and programs of the language

On a reader that knows the language, statements are what recursive descent reads, and a source text
is the program that recursive descent makes of its tokens (`parse_eq_program`).  Nesting too deeply
remains the only excuse.
-/

namespace Scriptlet

open Descent

namespace Grammar

/-- How statements begin. -/
theorem standard_statements (kind : TokenKind) :
    (standard.statements kind).getD .assignment =
      if kind = .ifWord then .conditional
      else if kind = .whileWord then .loop
      else if kind = .openCurly then .block
      else .assignment := by
  have table : ∀ kind ∈ TokenKind.all,
      (standard.statements kind).getD .assignment =
        if kind = .ifWord then .conditional
        else if kind = .whileWord then .loop
        else if kind = .openCurly then .block
        else .assignment := by
    decide
  exact table kind (TokenKind.mem_all kind)

end Grammar

namespace Parse

variable {limit : Nat} {ending : Except Diagnostic Token} {inner : Productions}

/-- Inner statements are read as recursive descent reads them. -/
def ReadsStatements (limit : Nat) (ending : Except Diagnostic Token)
    (inner : Productions) : Prop :=
  ∀ tokens, Mirrors limit ending tokens inner.statement (statementFrom ending tokens).result

theorem statementFrom_of_fault {diagnostic : Diagnostic}
    (unseen : current ending [] = .error diagnostic) :
    statementFrom ending [] = .stopped diagnostic := by
  rw [statementFrom, assignmentFrom, takeOneOf, blame, unseen]
  rfl

theorem assignment_mirrors (expressions : ReadsExpressions limit ending inner)
    (tokens : List Token) :
    Mirrors limit ending tokens (assignment inner) (assignmentFrom ending tokens).result := by
  apply Mirrors.andThen (Mirrors.expected (by decide))
  intro target rest _
  apply Mirrors.andThen (Mirrors.expected (by decide))
  intro _ after _
  apply Mirrors.andThen (expressions .lowest after)
  intro value later _
  apply Mirrors.andThen (Mirrors.expected (by decide))
  intro close last _
  exact Mirrors.done _

section Inner

variable (statements : ReadsStatements limit ending inner)
include statements

/-- The loop over the statements of a block goes on up to a closing brace. -/
theorem statements_mirrors (rounds : Nat) (tokens : List Token)
    (enough : tokens.length < rounds) :
    Mirrors limit ending tokens (Parse.statements inner rounds)
      (statementsFrom ending [.closeCurly] tokens).result := by
  induction rounds generalizing tokens with
  | zero => exact absurd enough (Nat.not_lt_zero _)
  | succ rounds ih =>
      apply Mirrors.byKind fun tokens => (statementsFrom ending [.closeCurly] tokens).result
      · intro final seen
        rw [if_pos (.inr rfl), statementsFrom, settle, seen]
        exact Mirrors.done _
      · intro diagnostic unseen
        rw [statementsFrom, settle, unseen]
        rfl
      · intro token rest same real
        cases same
        rw [statementsFrom]
        by_cases closed : token.kind = .closeCurly
        · rw [if_pos (.inl closed), if_pos (List.mem_singleton.mpr closed)]
          exact Mirrors.done _
        · rw [if_neg (not_or.mpr ⟨closed, real⟩), if_neg (by simp [closed])]
          apply Mirrors.andThen (statements (token :: rest))
          intro first after fewer
          refine Mirrors.andThen (ih after ?_) fun others last _ => Mirrors.done _
          exact Nat.lt_of_lt_of_le fewer (Nat.le_of_lt_succ enough)

/-- The loop over the statements of a program goes on up to the end of the input. -/
theorem program_mirrors (rounds : Nat) (tokens : List Token) (enough : tokens.length < rounds) :
    Mirrors limit ending tokens (program inner rounds)
      (statementsFrom ending [] tokens).result := by
  induction rounds generalizing tokens with
  | zero => exact absurd enough (Nat.not_lt_zero _)
  | succ rounds ih =>
      simp only [program, hasTokens, bind_assoc, pure_bind]
      apply Mirrors.byKind fun tokens => (statementsFrom ending [] tokens).result
      · intro final seen
        rw [if_neg (by decide), statementsFrom, settle, seen]
        exact Mirrors.done _
      · intro diagnostic unseen
        rw [statementsFrom, settle, unseen]
        rfl
      · intro token rest same real
        cases same
        rw [if_pos (decide_eq_true real), statementsFrom, if_neg List.not_mem_nil]
        apply Mirrors.andThen (statements (token :: rest))
        intro first after fewer
        refine Mirrors.andThen (ih after ?_) fun others last _ => Mirrors.done _
        exact Nat.lt_of_lt_of_le fewer (Nat.le_of_lt_succ enough)

variable (expressions : ReadsExpressions limit ending inner)
include expressions

/-- What follows an `else`: one more condition with its branch, or the last branch. -/
theorem afterElse_mirrors (start : Position) {others : Parse Alternatives} (tokens : List Token)
    (onward : ∀ rest : List Token, rest.length < tokens.length →
      Mirrors limit ending rest others (alternativesFrom ending rest).result) :
    Mirrors limit ending tokens
      (do
        if (← peekKind) = .ifWord then
          let _ ← advance
          let condition ← condition inner
          let branch ← inner.statement
          let others ← others
          return .elseIf condition branch ⟨start, branch.span.stop⟩ others
        else
          return .otherwise (← inner.statement))
      (afterElseFrom ending start tokens).result := by
  apply Mirrors.byKind fun tokens => (afterElseFrom ending start tokens).result
  · intro final _
    rw [if_neg (by decide), afterElseFrom]
    exact Mirrors.andThen (statements []) fun branch last _ => Mirrors.done _
  · intro diagnostic unseen
    rw [afterElseFrom, statementFrom_of_fault unseen]
    rfl
  · intro token rest same _
    cases same
    rw [afterElseFrom]
    by_cases conditional : token.kind = .ifWord
    · rw [if_pos conditional, if_pos conditional]
      refine Mirrors.take (Mirrors.andThen (grouping_mirrors expressions rest) ?_)
      intro condition after fewer
      apply Mirrors.andThen (statements after)
      intro branch later shorter
      refine Mirrors.andThen (onward later ?_) fun others last _ => Mirrors.done _
      exact Nat.lt_succ_of_lt (Nat.lt_trans shorter fewer)
    · rw [if_neg conditional, if_neg conditional]
      exact Mirrors.andThen (statements (token :: rest)) fun branch last _ => Mirrors.done _

/-- The loop over the branches of a conditional reads the alternatives. -/
theorem alternatives_mirrors (rounds : Nat) (tokens : List Token)
    (enough : tokens.length < rounds) :
    Mirrors limit ending tokens (alternatives inner rounds)
      (alternativesFrom ending tokens).result := by
  induction rounds generalizing tokens with
  | zero => exact absurd enough (Nat.not_lt_zero _)
  | succ rounds ih =>
      apply Mirrors.byKind fun tokens => (alternativesFrom ending tokens).result
      · intro final seen
        rw [if_neg (by decide), alternativesFrom, settle, seen]
        exact Mirrors.done _
      · intro diagnostic unseen
        rw [alternativesFrom, settle, unseen]
        rfl
      · intro token rest same _
        cases same
        rw [alternativesFrom]
        by_cases otherwise : token.kind = .elseWord
        · rw [if_pos otherwise, if_pos otherwise, Parsed.result_widen]
          refine Mirrors.take
            (afterElse_mirrors statements expressions token.span.start rest ?_)
          intro later shorter
          exact ih later (Nat.lt_trans shorter (Nat.lt_of_succ_lt_succ enough))
        · rw [if_neg otherwise, if_neg otherwise]
          exact Mirrors.done _

/-- The body of a statement goes by its first token. -/
theorem statementBody_mirrors (tokens : List Token) :
    Mirrors limit ending tokens (statementBody inner) (statementFrom ending tokens).result := by
  apply Mirrors.byKind fun tokens => (statementFrom ending tokens).result
  · intro final _
    apply Mirrors.ask
    intro reader knows
    rw [knows.grammar_eq, Grammar.standard_statements, statementFrom]
    exact assignment_mirrors expressions []
  · intro diagnostic unseen
    rw [statementFrom_of_fault unseen]
    rfl
  · intro token rest _ _
    apply Mirrors.ask
    intro reader knows
    rw [knows.grammar_eq, Grammar.standard_statements, statementFrom]
    by_cases conditional : token.kind = .ifWord
    · rw [if_pos conditional, if_pos conditional]
      apply Mirrors.expectedFirst (by simp [conditional])
      apply Mirrors.andThen (grouping_mirrors expressions rest)
      intro condition after _
      apply Mirrors.andThen (statements after)
      intro branch later _
      apply Mirrors.count
      intro rounds enough
      apply Mirrors.andThen (alternatives_mirrors statements expressions rounds later enough)
      intro alternatives last _
      exact Mirrors.done _
    · rw [if_neg conditional, if_neg conditional]
      by_cases loop : token.kind = .whileWord
      · rw [if_pos loop, if_pos loop]
        apply Mirrors.expectedFirst (by simp [loop])
        apply Mirrors.andThen (grouping_mirrors expressions rest)
        intro condition after _
        apply Mirrors.andThen (statements after)
        intro body last _
        exact Mirrors.done _
      · rw [if_neg loop, if_neg loop]
        by_cases block : token.kind = .openCurly
        · rw [if_pos block, if_pos block]
          simp only [statementBy, Parse.block, bind_assoc, pure_bind]
          apply Mirrors.expectedFirst (by simp [block])
          apply Mirrors.count
          intro rounds enough
          apply Mirrors.andThen (statements_mirrors statements rounds rest enough)
          intro body after _
          apply Mirrors.andThen (Mirrors.expected (by decide))
          intro close last _
          exact Mirrors.done _
        · rw [if_neg block, if_neg block]
          exact assignment_mirrors expressions (token :: rest)

end Inner

/-- However many levels may be opened, statements are read as recursive descent reads them. -/
theorem within_readsStatements (limit : Nat) (ending : Except Diagnostic Token) (levels : Nat) :
    ReadsStatements limit ending (Productions.within limit levels) := by
  induction levels with
  | zero =>
      intro tokens
      apply Mirrors.tooDeep
      intro diagnostic unseen
      cases tokens with
      | nil =>
          rw [statementFrom_of_fault unseen]
          rfl
      | cons first rest => cases unseen
  | succ levels ih =>
      intro tokens
      exact Mirrors.opened
        (statementBody_mirrors ih (within_readsExpressions limit ending levels) tokens)

/-- Statements up to the end of the input leave nothing, and there is no fault behind them. -/
theorem rest_of_statementsFrom {tokens rest : List Token} {body : List Statement}
    (read : (statementsFrom ending [] tokens).result = .ok (body, rest)) :
    rest = [] ∧ ∃ final, ending = .ok final := by
  cases tokens with
  | nil =>
      cases ended : ending with
      | ok final =>
          rw [statementsFrom, settle, ended] at read
          cases read
          exact ⟨rfl, final, rfl⟩
      | error diagnostic =>
          rw [statementsFrom, settle, ended] at read
          cases read
  | cons token tokens =>
      rw [statementsFrom, if_neg List.not_mem_nil] at read
      cases first : statementFrom ending (token :: tokens) with
      | stopped diagnostic =>
          rw [first] at read
          cases read
      | done statement after fewer =>
          rw [first] at read
          cases others : statementsFrom ending [] after with
          | stopped diagnostic =>
              simp only [Parsed.andThen, others] at read
              cases read
          | done statements last _ =>
              simp only [Parsed.andThen, others] at read
              cases read
              exact rest_of_statementsFrom (congrArg Parsed.result others)
termination_by tokens.length

/-- A whole program: what recursive descent reads, from where sources begin to where the input
ends. -/
theorem programBlock_mirrors (limit levels : Nat) (start : Position) (tokens : List Token) :
    Mirrors limit ending tokens
      (do
        let body ← program (Productions.within limit levels) (← rounds)
        let stop := (← peek).span.stop
        return (⟨body, ⟨start, stop⟩⟩ : Block))
      ((statementsFrom ending [] tokens).result >>= fun outcome =>
        (current ending outcome.2).map fun final =>
          (⟨outcome.1, ⟨start, final.span.stop⟩⟩, outcome.2)) := by
  apply Mirrors.count
  intro rounds enough
  refine Mirrors.bind (fun body rest => (current ending rest).map fun final =>
      ((⟨body, ⟨start, final.span.stop⟩⟩ : Block), rest))
    (program_mirrors (within_readsStatements limit ending levels) rounds tokens enough) ?_
  intro body rest _
  apply Mirrors.look
  · intro final seen
    rw [seen]
    exact Mirrors.done _
  · intro diagnostic unseen
    rw [unseen]
    rfl

end Parse

/-- A source text is the program that recursive descent reads off its tokens, or it is wrong in the
way that recursive descent says, or it nests too deeply. -/
theorem parse_eq_program (source : String) (file : Option String) :
    (∃ position,
        parse source file = .error (.failed ⟨.nestingTooDeep Parse.nestingLimit, position⟩)) ∨
      match program (Cursor.ofSource source file).stream.ending
          (Cursor.ofSource source file).stream.tokens with
      | .ok body => ∃ final, (Cursor.ofSource source file).stream.ending = .ok final ∧
          parse source file =
            .ok ⟨body, ⟨(Cursor.ofSource source file).position, final.span.stop⟩⟩
      | .error diagnostic => parse source file = .error (.failed diagnostic) := by
  have reads : (Reader.ofSource source file).Reads (Cursor.ofSource source file).stream.tokens
      (Cursor.ofSource source file).stream.ending := ⟨rfl, rfl, rfl⟩
  have ran : Parse.start Parse.nestingLimit Parse.programBlock (Reader.ofSource source file) = _ :=
    rfl
  rw [parse, parseWithin]
  cases Parse.programBlock_mirrors Parse.nestingLimit Parse.nestingLimit
      (Cursor.ofSource source file).position _ _ reads with
  | inl deep =>
      rcases deep with ⟨position, after, same⟩
      rw [ran.trans same]
      exact .inl ⟨position, rfl⟩
  | inr agrees =>
      rw [program]
      refine .inr ?_
      cases read : (statementsFrom (Cursor.ofSource source file).stream.ending []
          (Cursor.ofSource source file).stream.tokens).result with
      | error diagnostic =>
          rw [read] at agrees
          rcases agrees with ⟨after, same⟩
          rw [ran.trans same]
          rfl
      | ok outcome =>
          rcases outcome with ⟨body, rest⟩
          rcases Parse.rest_of_statementsFrom read with ⟨rfl, final, ended⟩
          have seen : current (Cursor.ofSource source file).stream.ending [] = .ok final := ended
          rw [read] at agrees
          simp only [bind, Except.bind, seen] at agrees
          rcases agrees with ⟨after, same, _⟩
          rw [ran.trans same]
          exact ⟨final, ended, rfl⟩

end Scriptlet
