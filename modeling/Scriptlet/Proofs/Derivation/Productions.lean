import Scriptlet.Proofs.Derivation.Exact

/-!
# Every production reads its derivations

One statement for each production: over inner productions that read the derivations with some number
of levels, the production reads just the derivations of its part.  Closing the knot gives what a
source text means: `parse` succeeds with a program if and only if the program has a derivation from
all the tokens of the source (`parse_ok_iff`).
-/

namespace Scriptlet

/-- The rule that a statement is read by. -/
def Statement.rule : Statement → StatementRule
  | .block .. => .block
  | .assignment .. => .assignment
  | .conditional .. => .conditional
  | .loop .. => .loop

namespace Part.From

variable {levels : Nat} {tokens rest : List Token}

/-- A part leaves no more tokens than there were. -/
theorem length_le {part : Part} (derives : part.From levels tokens rest) :
    rest.length ≤ tokens.length := by
  rcases derives.replace with ⟨used, rfl, _⟩
  simp

/-- Of no tokens none are left. -/
theorem spent {part : Part} (derives : part.From levels [] rest) : rest = [] :=
  List.eq_nil_of_length_eq_zero (Nat.le_zero.mp derives.length_le)

/-- A statement takes at least one token. -/
theorem length_lt {statement : Statement}
    (derives : (Part.statement statement).From levels tokens rest) :
    rest.length < tokens.length := by
  cases derives with
  | assignment _ _ given _ =>
      have shorter := given.length_le
      simp only [List.length_cons] at shorter ⊢
      omega
  | conditional _ asked first others =>
      have shorter := Nat.le_trans others.length_le first.length_le
      exact Nat.lt_succ_of_le (Nat.le_trans shorter asked.length_le)
  | loop _ asked repeats =>
      exact Nat.lt_succ_of_le (Nat.le_trans repeats.length_le asked.length_le)
  | block _ inner _ =>
      have shorter := inner.length_le
      simp only [List.length_cons] at shorter ⊢
      omega

/-- No statement begins with a closing brace. -/
theorem not_closes {statement : Statement} {token : Token}
    (derives : (Part.statement statement).From levels (token :: tokens) rest) :
    token.kind ≠ .closeCurly := by
  intro closes
  cases derives with
  | assignment named _ _ _ =>
      rw [closes] at named
      exact absurd named (by decide)
  | conditional begins _ _ _ => cases closes.symm.trans begins
  | loop begins _ _ => cases closes.symm.trans begins
  | block opens _ _ => cases closes.symm.trans opens

/-- The first token of a statement says by which rule it is read. -/
theorem rule_eq {statement : Statement} {token : Token}
    (derives : (Part.statement statement).From levels (token :: tokens) rest) :
    (Grammar.standard.statements token.kind).getD .assignment = statement.rule := by
  cases derives with
  | assignment named _ _ _ =>
      have table : ∀ kind ∈ TokenKind.identifiers,
          (Grammar.standard.statements kind).getD .assignment = .assignment := by
        decide
      exact table token.kind named
  | conditional begins _ _ _ =>
      rw [begins]
      rfl
  | loop begins _ _ =>
      rw [begins]
      rfl
  | block opens _ _ =>
      rw [opens]
      rfl

/-- An operand takes at least one token. -/
theorem ne_nil {value : Expression} (derives : (Part.operand value).From levels tokens rest) :
    tokens ≠ [] := by
  cases derives with
  | literal | name | call | unary => exact List.cons_ne_nil _ _
  | grouped inner =>
      cases inner with
      | group => exact List.cons_ne_nil _ _

end Part.From

namespace Grammar

/-- Which kinds of tokens begin an operand by which rule. -/
theorem standard_operands_iff (kind : TokenKind) :
    (standard.operands kind = some .primary ↔ kind.isLiteral = true) ∧
      (standard.operands kind = some .reference ↔ kind.isIdentifier = true) ∧
      (standard.operands kind = some .unary ↔ kind = .logicalNot) ∧
      (standard.operands kind = some .grouping ↔ kind = .openParen) := by
  have table : ∀ kind ∈ TokenKind.all,
      (standard.operands kind = some .primary ↔ kind.isLiteral = true) ∧
        (standard.operands kind = some .reference ↔ kind.isIdentifier = true) ∧
        (standard.operands kind = some .unary ↔ kind = .logicalNot) ∧
        (standard.operands kind = some .grouping ↔ kind = .openParen) := by
    decide
  exact table kind (TokenKind.mem_all kind)

end Grammar

/-- An operand that begins with `token`, by its rule. -/
def Part.OperandBy (levels : Nat) (token : Token) (tokens : List Token) (value : Expression)
    (rest : List Token) : OperandRule → Prop
  | .primary => value = .atom token ∧ rest = tokens
  | .reference =>
      (value = .atom token ∧ rest = tokens ∧ NextNot (· = .openParen) tokens) ∨
        ∃ opening closing, value = .call token ∧ tokens = opening :: closing :: rest ∧
          opening.kind = .openParen ∧ closing.kind = .closeParen
  | .unary => ∃ operand, value = .unary token operand ∧
      (Part.expression .unary operand).From levels tokens rest
  | .grouping => (Part.group value).From levels (token :: tokens) rest

/-- The derivations of an operand go by the rule for its first token. -/
theorem Part.From.operand_iff {levels : Nat} {token : Token} {tokens rest : List Token}
    {value : Expression} :
    (Part.operand value).From levels (token :: tokens) rest ↔
      ∃ rule, Grammar.standard.operands token.kind = some rule ∧
        Part.OperandBy levels token tokens value rest rule := by
  obtain ⟨primary, reference, negation, grouping⟩ := Grammar.standard_operands_iff token.kind
  constructor
  · intro derives
    cases derives with
    | literal kind => exact ⟨.primary, primary.mpr kind, rfl, rfl⟩
    | name kind alone => exact ⟨.reference, reference.mpr kind, .inl ⟨rfl, rfl, alone⟩⟩
    | call kind opens closes =>
        exact ⟨.reference, reference.mpr kind, .inr ⟨_, _, rfl, rfl, opens, closes⟩⟩
    | unary kind inner => exact ⟨.unary, negation.mpr kind, _, rfl, inner⟩
    | grouped inner =>
        cases inner with
        | group opens within closes =>
            exact ⟨.grouping, grouping.mpr opens, .group opens within closes⟩
  · rintro ⟨rule, entry, derives⟩
    cases rule with
    | primary =>
        rcases derives with ⟨rfl, rfl⟩
        exact .literal (primary.mp entry)
    | reference =>
        rcases derives with ⟨rfl, rfl, alone⟩ | ⟨opening, closing, rfl, rfl, opens, closes⟩
        · exact .name (reference.mp entry) alone
        · exact .call (reference.mp entry) opens closes
    | unary =>
        rcases derives with ⟨operand, rfl, inner⟩
        exact .unary (negation.mp entry) inner
    | grouping => exact .grouped derives

namespace Parse

variable {ending : Except Diagnostic Token} {inner : Productions} {levels : Nat}
  {tokens : List Token}

/-- Inner productions read the derivations that open no more than `levels` levels. -/
structure ReadsParts (ending : Except Diagnostic Token) (inner : Productions) (levels : Nat) :
    Prop where
  statement : ∀ tokens, Exact ending tokens inner.statement
    fun value rest => (Part.statement value).From levels tokens rest
  expression : ∀ power tokens, Exact ending tokens (inner.expression power)
    fun value rest => (Part.expression power value).From levels tokens rest

/-- A variable, or a call if parentheses follow it. -/
theorem reference_exact (name : Token) (tokens : List Token) :
    Exact ending (name :: tokens) reference
      fun value rest => Part.OperandBy levels name tokens value rest .reference := by
  apply Exact.take
  apply Exact.byKind fun tokens value rest =>
    Part.OperandBy levels name tokens value rest .reference
  · rintro value rest (⟨_, rfl, _⟩ | ⟨_, _, _, impossible, _⟩)
    · rfl
    · cases impossible
  · rw [if_neg (by decide)]
    refine (Exact.done _).congr ?_
    intro value rest
    simp [Part.OperandBy, NextNot]
  · intro token rest _ _
    by_cases opens : token.kind = .openParen
    · rw [if_pos opens]
      refine (Exact.take (Exact.bind (Exact.expected .closeParen (by decide))
        fun _ _ _ => Exact.done _)).congr ?_
      intro value left
      constructor
      · rintro ⟨closing, last, ⟨rfl, closes⟩, rfl, rfl⟩
        exact .inr ⟨token, closing, rfl, rfl, opens, closes⟩
      · rintro (⟨_, _, alone⟩ | ⟨opening, closing, rfl, same, _, closes⟩)
        · exact absurd opens (alone token rfl)
        · cases same
          exact ⟨closing, left, ⟨rfl, closes⟩, rfl, rfl⟩
    · rw [if_neg opens]
      refine (Exact.done _).congr ?_
      intro value left
      constructor
      · rintro ⟨rfl, rfl⟩
        refine .inl ⟨rfl, rfl, ?_⟩
        rintro other ⟨⟩
        exact opens
      · rintro (⟨rfl, rfl, _⟩ | ⟨opening, closing, _, same, found, _⟩)
        · exact ⟨rfl, rfl⟩
        · cases same
          exact absurd found opens

section Inner

variable (parts : ReadsParts ending inner levels)
include parts

/-! ## Expressions -/

theorem grouping_exact (tokens : List Token) :
    Exact ending tokens (grouping inner)
      fun value rest => (Part.group value).From levels tokens rest := by
  refine (Exact.bind (Exact.expected .openParen (by decide)) fun _ after _ =>
    Exact.bind (parts.expression .lowest after) fun value later _ =>
    Exact.bind (Exact.expected .closeParen (by decide)) fun _ _ _ => Exact.done value).congr ?_
  intro value rest
  constructor
  · rintro ⟨opening, after, ⟨rfl, opens⟩, result, later, inner, closing, last, ⟨rfl, closes⟩,
      rfl, rfl⟩
    exact .group opens inner closes
  · intro derives
    cases derives with
    | group opens inner closes =>
        exact ⟨_, _, ⟨rfl, opens⟩, _, _, inner, _, _, ⟨rfl, closes⟩, rfl, rfl⟩

/-- An operand by the rule for its first token. -/
theorem operand_exact {token : Token} {rule : OperandRule}
    (entry : Grammar.standard.operands token.kind = some rule) (tokens : List Token) :
    Exact ending (token :: tokens) (operand inner rule)
      fun value rest => (Part.operand value).From levels (token :: tokens) rest := by
  have byRule : Exact ending (token :: tokens) (operand inner rule)
      fun value rest => Part.OperandBy levels token tokens value rest rule := by
    cases rule with
    | primary => exact Exact.take (Exact.done _)
    | reference => exact reference_exact token tokens
    | unary =>
        refine (Exact.take (Exact.bind (parts.expression .unary tokens)
          fun _ _ _ => Exact.done _)).congr ?_
        intro value rest
        constructor
        · rintro ⟨operand, after, inner, rfl, rfl⟩
          exact ⟨operand, rfl, inner⟩
        · rintro ⟨operand, rfl, inner⟩
          exact ⟨operand, rest, inner, rfl, rfl⟩
    | grouping => exact grouping_exact parts (token :: tokens)
  refine byRule.congr fun value rest => ?_
  rw [Part.From.operand_iff]
  constructor
  · intro derives
    exact ⟨rule, entry, derives⟩
  · rintro ⟨other, same, derives⟩
    cases entry.symm.trans same
    exact derives

/-- The loop over operators joins for as long as they bind more strongly than its power. -/
theorem operators_exact (power : Power) (rounds : Nat) (left : Expression) (tokens : List Token)
    (enough : tokens.length < rounds) :
    Exact ending tokens (operators inner power rounds left)
      fun whole rest => (Part.joined power left whole).From levels tokens rest := by
  induction rounds generalizing left tokens with
  | zero => exact absurd enough (Nat.not_lt_zero _)
  | succ rounds ih =>
      -- An operator that does not join, or none at all, ends the loop.
      have stops : ∀ tokens, NextNot (Grammar.Joins power) tokens →
          Exact ending tokens (pure left : Parse Expression)
            fun whole rest => (Part.joined power left whole).From levels tokens rest := by
        intro tokens ends
        refine (Exact.done left).congr fun whole rest => ?_
        constructor
        · rintro ⟨rfl, rfl⟩
          exact .last ends
        · intro derives
          cases derives with
          | last _ => exact ⟨rfl, rfl⟩
          | further binds stronger _ _ => exact absurd ⟨_, binds, stronger⟩ (ends _ rfl)
      apply Exact.byKind fun tokens whole rest =>
        (Part.joined power left whole).From levels tokens rest
      · exact fun _ _ derives => derives.spent
      · apply Exact.ask fun _ _ _ derives => derives.spent
        intro reader knows
        dsimp only
        rw [knows.grammar_eq]
        refine stops [] ?_
        rintro token ⟨⟩
      · intro token rest same _
        cases same
        apply Exact.ask (fun _ _ nothing => by cases nothing)
        intro reader knows
        dsimp only
        rw [knows.grammar_eq]
        cases binds : Grammar.standard.powers token.kind with
        | none =>
            refine stops (token :: rest) ?_
            rintro other ⟨⟩ ⟨next, found, _⟩
            cases binds.symm.trans found
        | some next =>
            have rule : Grammar.standard.operators token.kind = some .binary := by
              have entry : Grammar.standardOperators.lookup token.kind = some next := binds
              simp [Grammar.standard, entry]
            rw [rule]
            dsimp only
            by_cases weaker : next ≤ power
            · rw [if_pos weaker]
              refine stops (token :: rest) ?_
              rintro other ⟨⟩ ⟨power', found, stronger⟩
              cases binds.symm.trans found
              exact stronger weaker
            · rw [if_neg weaker]
              simp only [operator, Parse.binary, bind_assoc, pure_bind]
              refine (Exact.take (Exact.bind (parts.expression next rest)
                fun right after derives => ih (.binary token left right) after ?_)).congr ?_
              · have shorter := derives.length_le
                simp only [List.length_cons] at enough
                omega
              · intro whole last
                constructor
                · rintro ⟨right, after, operand, others⟩
                  exact .further binds weaker operand others
                · intro derives
                  cases derives with
                  | last ends => exact absurd ⟨next, binds, weaker⟩ (ends _ rfl)
                  | further found _ operand others =>
                      cases binds.symm.trans found
                      exact ⟨_, _, operand, others⟩

theorem expressionBody_exact (power : Power) (tokens : List Token) :
    Exact ending tokens (expressionBody inner power)
      fun value rest => (Part.expression power value).From (levels + 1) tokens rest := by
  have parted : ∀ tokens value rest, (Part.expression power value).From (levels + 1) tokens rest ↔
      ∃ left middle, (Part.operand left).From levels tokens middle ∧
        (Part.joined power left value).From levels middle rest := by
    intro tokens value rest
    constructor
    · intro derives
      cases derives with
      | expression first others => exact ⟨_, _, first, others⟩
    · rintro ⟨left, middle, first, others⟩
      exact .expression first others
  apply Exact.look fun tokens value rest =>
    (Part.expression power value).From (levels + 1) tokens rest
  · exact fun _ _ derives => derives.spent
  · intro final _ atEnd
    apply Exact.ask fun _ _ _ derives => derives.spent
    intro reader knows
    have absent : Grammar.standard.operands final.kind = none := by
      rw [atEnd]
      decide
    rw [knows.grammar_eq, absent]
    refine (Exact.failed fun reader _ => ⟨_, reader, rfl⟩).congr fun value rest => ?_
    refine iff_of_false id fun derives => ?_
    rcases (parted [] value rest).mp derives with ⟨left, middle, first, _⟩
    exact first.ne_nil rfl
  · intro token rest same _
    apply Exact.ask (fun _ _ nothing => by cases nothing)
    intro reader knows
    rw [knows.grammar_eq]
    cases entry : Grammar.standard.operands token.kind with
    | none =>
        refine (Exact.failed fun reader _ => ⟨_, reader, rfl⟩).congr fun value left => ?_
        refine iff_of_false id fun derives => ?_
        rcases (parted _ value left).mp derives with ⟨operand, middle, first, _⟩
        rcases Part.From.operand_iff.mp first with ⟨rule, found, _⟩
        cases entry.symm.trans found
    | some rule =>
        refine (Exact.bind (operand_exact parts entry rest) fun left after _ =>
          Exact.count fun rounds enough =>
            operators_exact parts power rounds left after enough).congr fun value left => ?_
        exact (parted _ value left).symm

/-! ## Statements -/

/-- What follows an `else`: one more condition with its branch, or the last branch. -/
theorem afterElse_exact {start : Token} (begins : start.kind = .elseWord)
    {others : Parse Alternatives} (tokens : List Token)
    (onward : ∀ rest : List Token, rest.length < tokens.length →
      Exact ending rest others
        fun value last => (Part.alternatives value).From levels rest last) :
    Exact ending tokens
      (do
        if (← peekKind) = .ifWord then
          let _ ← advance
          let condition ← condition inner
          let branch ← inner.statement
          let others ← others
          return .elseIf condition branch ⟨start.span.start, branch.span.stop⟩ others
        else
          return .otherwise (← inner.statement))
      fun value rest => (Part.alternatives value).From levels (start :: tokens) rest := by
  have bare : ∀ tokens, NextNot (· = .ifWord) tokens →
      Exact ending tokens (do return .otherwise (← inner.statement))
        fun value rest => (Part.alternatives value).From levels (start :: tokens) rest := by
    intro tokens bare
    refine (Exact.bind (parts.statement tokens) fun _ _ _ => Exact.done _).congr ?_
    intro value rest
    constructor
    · rintro ⟨branch, after, derives, rfl, rfl⟩
      exact .otherwise begins bare derives
    · intro derives
      cases derives with
      | nothing ends => exact absurd begins (ends start rfl)
      | otherwise _ _ derives => exact ⟨_, _, derives, rfl, rfl⟩
      | elseIf _ asks _ _ _ => exact absurd asks (bare _ rfl)
  apply Exact.byKind fun tokens value rest =>
    (Part.alternatives value).From levels (start :: tokens) rest
  · intro value rest derives
    cases derives with
    | nothing ends => exact absurd begins (ends start rfl)
    | otherwise _ _ inner => exact inner.spent
  · rw [if_neg (by decide)]
    refine bare [] ?_
    rintro token ⟨⟩
  · intro token rest same _
    cases same
    by_cases asks : token.kind = .ifWord
    · rw [if_pos asks]
      refine (Exact.take (Exact.bind (grouping_exact parts rest) fun condition after asked =>
        Exact.bind (parts.statement after) fun branch later derives =>
        Exact.bind (onward later ?_) fun _ _ _ => Exact.done _)).congr ?_
      · have shorter := Nat.le_trans derives.length_le asked.length_le
        exact Nat.lt_succ_of_le shorter
      · intro value last
        constructor
        · rintro ⟨condition, after, asked, branch, later, derives, chain, left, further, rfl, rfl⟩
          exact .elseIf begins asks asked derives further
        · intro derives
          cases derives with
          | nothing ends => exact absurd begins (ends start rfl)
          | otherwise _ bare _ => exact absurd asks (bare _ rfl)
          | elseIf _ _ asked derives further =>
              exact ⟨_, _, asked, _, _, derives, _, _, further, rfl, rfl⟩
    · rw [if_neg asks]
      refine bare (token :: rest) ?_
      rintro other ⟨⟩
      exact asks

/-- The loop over the branches of a conditional reads its alternatives. -/
theorem alternatives_exact (rounds : Nat) (tokens : List Token)
    (enough : tokens.length < rounds) :
    Exact ending tokens (alternatives inner rounds)
      fun value rest => (Part.alternatives value).From levels tokens rest := by
  induction rounds generalizing tokens with
  | zero => exact absurd enough (Nat.not_lt_zero _)
  | succ rounds ih =>
      have stops : ∀ tokens, NextNot (· = .elseWord) tokens →
          Exact ending tokens (pure .nothing : Parse Alternatives)
            fun value rest => (Part.alternatives value).From levels tokens rest := by
        intro tokens ends
        refine (Exact.done _).congr fun value rest => ?_
        constructor
        · rintro ⟨rfl, rfl⟩
          exact .nothing ends
        · intro derives
          cases derives with
          | nothing _ => exact ⟨rfl, rfl⟩
          | otherwise begins _ _ => exact absurd begins (ends _ rfl)
          | elseIf begins _ _ _ _ => exact absurd begins (ends _ rfl)
      apply Exact.byKind fun tokens value rest =>
        (Part.alternatives value).From levels tokens rest
      · exact fun _ _ derives => derives.spent
      · rw [if_neg (by decide)]
        refine stops [] ?_
        rintro token ⟨⟩
      · intro token rest same _
        cases same
        by_cases begins : token.kind = .elseWord
        · rw [if_pos begins]
          refine Exact.take (afterElse_exact parts begins rest fun later shorter => ?_)
          exact ih later (Nat.lt_trans shorter (Nat.lt_of_succ_lt_succ enough))
        · rw [if_neg begins]
          refine stops (token :: rest) ?_
          rintro other ⟨⟩
          exact begins

omit parts in
/-- Statements end where no statement can begin. -/
theorem statements_stop (stops : List Token → Prop) (ends : stops tokens)
    (nothing : ∀ statement rest, ¬ (Part.statement statement).From levels tokens rest) :
    Exact ending tokens (pure [] : Parse (List Statement))
      fun body rest => (Part.statements body).From levels tokens rest ∧ stops rest := by
  refine (Exact.done _).congr fun body rest => ?_
  constructor
  · rintro ⟨rfl, rfl⟩
    exact ⟨.nil, ends⟩
  · rintro ⟨derives, _⟩
    cases derives with
    | nil => exact ⟨rfl, rfl⟩
    | cons first _ => exact absurd first (nothing _ _)

/-- One statement, and then the others. -/
theorem statements_step (stops : List Token → Prop) (goes : ¬ stops tokens)
    {others : Parse (List Statement)}
    (onward : ∀ rest : List Token, rest.length < tokens.length → Exact ending rest others
      fun body last => (Part.statements body).From levels rest last ∧ stops last) :
    Exact ending tokens (do
        let first ← inner.statement
        return first :: (← others))
      fun body rest => (Part.statements body).From levels tokens rest ∧ stops rest := by
  refine (Exact.bind (parts.statement tokens) fun _ after derives =>
    Exact.bind (onward after derives.length_lt) fun _ _ _ => Exact.done _).congr ?_
  intro body rest
  constructor
  · rintro ⟨first, after, derives, others, last, ⟨further, ends⟩, rfl, rfl⟩
    exact ⟨.cons derives further, ends⟩
  · rintro ⟨derives, ends⟩
    cases derives with
    | nil => exact absurd ends goes
    | cons derives further => exact ⟨_, _, derives, _, _, ⟨further, ends⟩, rfl, rfl⟩

/-- The loop over the statements of a block goes on up to a closing brace. -/
theorem statements_exact (rounds : Nat) (tokens : List Token) (enough : tokens.length < rounds) :
    Exact ending tokens (Parse.statements inner rounds)
      fun body rest => (Part.statements body).From levels tokens rest ∧
        NextNot (· ≠ .closeCurly) rest := by
  induction rounds generalizing tokens with
  | zero => exact absurd enough (Nat.not_lt_zero _)
  | succ rounds ih =>
      apply Exact.byKind fun tokens body rest =>
        (Part.statements body).From levels tokens rest ∧ NextNot (· ≠ .closeCurly) rest
      · exact fun _ _ derives => derives.1.spent
      · rw [if_pos (.inr rfl)]
        refine statements_stop (NextNot (· ≠ .closeCurly)) ?_ fun statement rest derives => ?_
        · rintro token ⟨⟩
        · exact absurd derives.length_lt (Nat.not_lt_zero _)
      · intro token rest same real
        cases same
        by_cases closes : token.kind = .closeCurly
        · rw [if_pos (.inl closes)]
          refine statements_stop (NextNot (· ≠ .closeCurly)) ?_ fun statement rest derives => ?_
          · rintro other ⟨⟩ open'
            exact open' closes
          · exact derives.not_closes closes
        · rw [if_neg (not_or.mpr ⟨closes, real⟩)]
          refine statements_step parts (NextNot (· ≠ .closeCurly))
            (fun ends => ends token rfl closes) fun later shorter => ?_
          exact ih later (Nat.lt_of_lt_of_le shorter (Nat.le_of_lt_succ enough))

/-- The loop over the statements of a program goes on up to the end of the input. -/
theorem program_exact (rounds : Nat) (tokens : List Token) (enough : tokens.length < rounds) :
    Exact ending tokens (program inner rounds)
      fun body rest => (Part.statements body).From levels tokens rest ∧ rest = [] := by
  induction rounds generalizing tokens with
  | zero => exact absurd enough (Nat.not_lt_zero _)
  | succ rounds ih =>
      simp only [program, hasTokens, bind_assoc, pure_bind]
      apply Exact.byKind fun tokens body rest =>
        (Part.statements body).From levels tokens rest ∧ rest = []
      · exact fun _ _ derives => derives.2
      · rw [if_neg (by decide)]
        refine statements_stop (· = []) rfl fun statement rest derives => ?_
        exact absurd derives.length_lt (Nat.not_lt_zero _)
      · intro token rest same real
        cases same
        rw [if_pos (decide_eq_true real)]
        refine statements_step parts (· = []) (List.cons_ne_nil _ _) fun later shorter => ?_
        exact ih later (Nat.lt_of_lt_of_le shorter (Nat.le_of_lt_succ enough))

/-- A statement by a rule is one of the statements with that rule. -/
theorem statementBy_exact (rule : StatementRule) (tokens : List Token) :
    Exact ending tokens (statementBy inner rule)
      fun value rest => (Part.statement value).From (levels + 1) tokens rest ∧
        value.rule = rule := by
  cases rule with
  | conditional =>
      refine (Exact.bind (Exact.expected .ifWord (by decide)) fun start after _ =>
        Exact.bind (grouping_exact parts after) fun condition middle _ =>
        Exact.bind (parts.statement middle) fun branch later _ =>
        Exact.count fun rounds enough =>
        Exact.bind (alternatives_exact parts rounds later enough) fun alternatives _ _ =>
        Exact.done (Statement.conditional condition branch alternatives
          ⟨start.span.start, alternatives.stop?.getD branch.span.stop⟩)).congr ?_
      intro value rest
      constructor
      · rintro ⟨start, after, ⟨rfl, begins⟩, condition, middle, asked, branch, later, first,
          alternatives, last, others, rfl, rfl⟩
        exact ⟨.conditional begins asked first others, rfl⟩
      · rintro ⟨derives, rule⟩
        cases derives with
        | conditional begins asked first others =>
            exact ⟨_, _, ⟨rfl, begins⟩, _, _, asked, _, _, first, _, _, others, rfl, rfl⟩
        | assignment | loop | block => cases rule
  | loop =>
      refine (Exact.bind (Exact.expected .whileWord (by decide)) fun start after _ =>
        Exact.bind (grouping_exact parts after) fun condition middle _ =>
        Exact.bind (parts.statement middle) fun _ _ _ => Exact.done _).congr ?_
      intro value rest
      constructor
      · rintro ⟨start, after, ⟨rfl, begins⟩, condition, middle, asked, body, last, repeats,
          rfl, rfl⟩
        exact ⟨.loop begins asked repeats, rfl⟩
      · rintro ⟨derives, rule⟩
        cases derives with
        | loop begins asked repeats =>
            exact ⟨_, _, ⟨rfl, begins⟩, _, _, asked, _, _, repeats, rfl, rfl⟩
        | assignment | conditional | block => cases rule
  | block =>
      simp only [statementBy, Parse.block, bind_assoc, pure_bind]
      refine (Exact.bind (Exact.expected .openCurly (by decide)) fun opening after _ =>
        Exact.count fun rounds enough =>
        Exact.bind (statements_exact parts rounds after enough) fun body _ _ =>
        Exact.bind (Exact.expected .closeCurly (by decide)) fun closing _ _ =>
        Exact.done (Statement.block body ⟨opening.span.start, closing.span.stop⟩)).congr ?_
      intro value rest
      constructor
      · rintro ⟨opening, after, ⟨rfl, opens⟩, body, later, ⟨inner, _⟩, closing, last, ⟨rfl, closes⟩,
          rfl, rfl⟩
        exact ⟨.block opens inner closes, rfl⟩
      · rintro ⟨derives, rule⟩
        cases derives with
        | block opens inner closes =>
            refine ⟨_, _, ⟨rfl, opens⟩, _, _, ⟨inner, ?_⟩, _, _, ⟨rfl, closes⟩, rfl, rfl⟩
            rintro other ⟨⟩ open'
            exact open' closes
        | assignment | conditional | loop => cases rule
  | assignment =>
      refine (Exact.bind (Exact.expectedOneOf (by decide)) fun target after _ =>
        Exact.bind (Exact.expected .assign (by decide)) fun _ middle _ =>
        Exact.bind (parts.expression .lowest middle) fun value later _ =>
        Exact.bind (Exact.expected .semicolon (by decide)) fun _ _ _ => Exact.done _).congr ?_
      intro value rest
      constructor
      · rintro ⟨target, after, ⟨rfl, named⟩, equals, middle, ⟨rfl, sets⟩, value, later, given,
          closing, last, ⟨rfl, closes⟩, rfl, rfl⟩
        exact ⟨.assignment named sets given closes, rfl⟩
      · rintro ⟨derives, rule⟩
        cases derives with
        | assignment named sets given closes =>
            exact ⟨_, _, ⟨rfl, named⟩, _, _, ⟨rfl, sets⟩, _, _, given, _, _, ⟨rfl, closes⟩,
              rfl, rfl⟩
        | conditional | loop | block => cases rule

theorem statementBody_exact (tokens : List Token) :
    Exact ending tokens (statementBody inner)
      fun value rest => (Part.statement value).From (levels + 1) tokens rest := by
  apply Exact.byKind fun tokens value rest =>
    (Part.statement value).From (levels + 1) tokens rest
  · exact fun _ _ derives => derives.spent
  · apply Exact.ask fun _ _ _ derives => derives.spent
    intro reader knows
    refine (statementBy_exact parts _ []).congr fun value rest => ?_
    refine iff_of_false (fun derives => ?_) fun derives => ?_
    · exact absurd derives.1.length_lt (Nat.not_lt_zero _)
    · exact absurd derives.length_lt (Nat.not_lt_zero _)
  · intro token rest _ _
    apply Exact.ask (fun _ _ nothing => by cases nothing)
    intro reader knows
    rw [knows.grammar_eq]
    refine (statementBy_exact parts _ (token :: rest)).congr fun value rest => ?_
    exact and_iff_left_of_imp fun derives => derives.rule_eq.symm

end Inner

/-- Productions read the derivations with as many levels as they may open. -/
theorem within_readsParts (ending : Except Diagnostic Token) (limit levels : Nat) :
    ReadsParts ending (Productions.within limit levels) levels := by
  induction levels with
  | zero =>
      constructor
      · intro tokens
        refine (Exact.tooDeep limit).congr fun value rest => iff_of_false id fun derives => ?_
        cases derives
      · intro power tokens
        refine (Exact.tooDeep limit).congr fun value rest => iff_of_false id fun derives => ?_
        cases derives
  | succ levels ih =>
      constructor
      · intro tokens
        exact (statementBody_exact ih tokens).opened
      · intro power tokens
        exact (expressionBody_exact ih power tokens).opened

/-- A whole program, from where sources begin to where the input ends. -/
theorem programBlock_exact (final : Token) (limit levels : Nat) (start : Position)
    (tokens : List Token) :
    Exact (.ok final) tokens
      (do
        let body ← program (Productions.within limit levels) (← rounds)
        let stop := (← peek).span.stop
        return (⟨body, ⟨start, stop⟩⟩ : Block))
      fun block rest => (Part.statements block.body).From levels tokens rest ∧ rest = [] ∧
        block.span = ⟨start, final.span.stop⟩ := by
  have closing : ∀ body between, between = [] → Exact (.ok final) between
      (do
        let stop := (← peek).span.stop
        return (⟨body, ⟨start, stop⟩⟩ : Block))
      fun block rest => block = (⟨body, ⟨start, final.span.stop⟩⟩ : Block) ∧ rest = [] := by
    rintro body _ rfl
    apply Exact.look fun _ block rest =>
      block = (⟨body, ⟨start, final.span.stop⟩⟩ : Block) ∧ rest = []
    · exact fun _ _ closed => closed.2
    · rintro final ⟨⟩ _
      exact Exact.done _
    · intro token rest impossible
      cases impossible
  refine (Exact.count fun rounds enough =>
    Exact.bind (program_exact (within_readsParts _ limit levels) rounds tokens enough)
      fun body between derives => closing body between derives.2).congr fun block rest => ?_
  constructor
  · rintro ⟨body, between, ⟨derives, rfl⟩, rfl, rfl⟩
    exact ⟨derives, rfl, rfl⟩
  · rintro ⟨derives, rfl, same⟩
    refine ⟨block.body, [], ⟨derives, rfl⟩, ?_, rfl⟩
    rw [← same]

end Parse

/-- A reader at the start of a source is going to see all its tokens. -/
theorem Reader.Reads.ofSource {source : String} {file : Option String} {tokens : List Token}
    (lexed : tokenize source file = .ok tokens) :
    (Reader.ofSource source file).Reads tokens (.ok (.closing file tokens)) := by
  rcases Cursor.stream_ofSource lexed with ⟨same, ended⟩
  exact ⟨same, ended, rfl⟩

/-- A source that can be read can be cut into tokens. -/
theorem tokenize_of_parse {source : String} {file : Option String} {root : Block}
    (read : parse source file = .ok root) : ∃ tokens, tokenize source file = .ok tokens := by
  obtain ⟨position, deep⟩ | meant := parse_eq_program source file
  · cases deep.symm.trans read
  · split at meant
    next body _ =>
      rcases meant with ⟨final, ended, _⟩
      refine ⟨(Cursor.ofSource source file).stream.tokens, ?_⟩
      rw [tokenize, Cursor.drain_eq_items, TokenStream.gather_items, ended]
      rfl
    next diagnostic _ => cases meant.symm.trans read

/-- A source text means a program if and only if the program has a derivation from all the tokens of
the text. -/
theorem parse_ok_iff {source : String} {file : Option String} {root : Block} :
    parse source file = .ok root ↔
      ∃ tokens, tokenize source file = .ok tokens ∧
        (Part.statements root.body).From Parse.nestingLimit tokens [] ∧
        root.span = ⟨Place.start.inFile (file.getD Cursor.unnamed),
          (Token.closing file tokens).span.stop⟩ := by
  have ran : Parse.start Parse.nestingLimit Parse.programBlock (Reader.ofSource source file) = _ :=
    rfl
  constructor
  · intro read
    rcases tokenize_of_parse read with ⟨tokens, lexed⟩
    rw [parse, parseWithin, ran] at read
    split at read
    next block after result =>
      cases read
      rcases (Parse.programBlock_exact _ Parse.nestingLimit Parse.nestingLimit _ tokens).sound
        (Reader.Reads.ofSource lexed) result with ⟨rest, _, derives, rfl, span⟩
      exact ⟨tokens, lexed, derives, span⟩
    next => cases read
  · rintro ⟨tokens, lexed, derives, span⟩
    have exact := Parse.programBlock_exact (.closing file tokens) Parse.nestingLimit
      Parse.nestingLimit (Place.start.inFile (file.getD Cursor.unnamed)) tokens
    have gives := exact.complete (Reader.Reads.ofSource lexed) ⟨derives, rfl, span⟩
    rcases gives.exists_ok with ⟨after, result, _⟩
    rw [parse, parseWithin, ran.trans result]

end Scriptlet
