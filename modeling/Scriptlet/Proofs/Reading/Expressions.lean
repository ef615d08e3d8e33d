import Scriptlet.Proofs.Reading.Precedence

/-!
# Expressions of the language

On a reader that knows the language, an expression of a given power is what recursive descent reads
at the layer just above that power.  Operands are read by the table of operands, and the loop over
operators by the table of powers; both tables are compared with the layers here and nowhere else.
-/

namespace Scriptlet

open Descent

/-! ## The tables of the language -/

namespace Descent.Layer

/-- The power of the operators of a layer. -/
def power : Layer → Power
  | .logicalOr => .logicalOr
  | .logicalAnd => .logicalAnd
  | .additive => .additive
  | .multiplicative => .multiplicative
  | .unary => .unary

/-- The layer of the operands that bind more strongly than a power. -/
def above : Power → Layer
  | .lowest => .logicalOr
  | .logicalOr => .logicalAnd
  | .logicalAnd => .additive
  | .additive => .multiplicative
  | .multiplicative => .unary
  | .unary => .unary

theorem above_power (layer : Layer) : above layer.power = layer.tighter := by
  cases layer <;> rfl

/-- Operators that bind no more strongly than a power are those beyond the layer above it. -/
theorem power_le_iff {layer : Layer} (binary : layer ≠ .unary) (power : Power) :
    layer.power ≤ power ↔ ¬ layer.height ≤ (above power).height := by
  revert binary
  cases layer <;> cases power <;> decide

end Descent.Layer

namespace Grammar

/-- A kind is an operator with a power exactly if it joins the operands of a layer. -/
theorem standard_powers (kind : TokenKind) :
    (∃ layer : Layer, kind ∈ layer.operators ∧ standard.powers kind = some layer.power ∧
        standard.operators kind = some .binary) ∨
      standard.powers kind = none ∧ ∀ layer : Layer, kind ∉ layer.operators := by
  have table : ∀ kind ∈ TokenKind.all,
      (∃ layer ∈ Layer.all, kind ∈ layer.operators ∧
          standard.powers kind = some layer.power ∧ standard.operators kind = some .binary) ∨
        standard.powers kind = none ∧ ∀ layer ∈ Layer.all, kind ∉ layer.operators := by
    decide
  rcases table kind (TokenKind.mem_all kind) with ⟨layer, _, entry⟩ | ⟨absent, outside⟩
  · exact .inl ⟨layer, entry⟩
  · refine .inr ⟨absent, fun layer => outside layer ?_⟩
    cases layer <;> decide

/-- How operands begin. -/
theorem standard_operands (kind : TokenKind) :
    standard.operands kind =
      if kind = .logicalNot then some .unary
      else if kind.isLiteral then some .primary
      else if kind.isIdentifier then some .reference
      else if kind = .openParen then some .grouping
      else none := by
  have table : ∀ kind ∈ TokenKind.all,
      standard.operands kind =
        if kind = .logicalNot then some .unary
        else if kind.isLiteral then some .primary
        else if kind.isIdentifier then some .reference
        else if kind = .openParen then some .grouping
        else none := by
    decide
  exact table kind (TokenKind.mem_all kind)

end Grammar

namespace Parse

variable {α : Type} {limit : Nat} {ending : Except Diagnostic Token} {inner : Productions}

/-- Inner expressions are read as recursive descent reads them. -/
def ReadsExpressions (limit : Nat) (ending : Except Diagnostic Token)
    (inner : Productions) : Prop :=
  ∀ power tokens, Mirrors limit ending tokens (inner.expression power)
    (layerFrom ending (.above power) tokens).result

/-! ## Operators -/

/-- The loop over operators climbs up to the layer above its power. -/
theorem operators_mirrors (expressions : ReadsExpressions limit ending inner) (power : Power)
    (rounds : Nat) (left : Expression) (tokens : List Token) (enough : tokens.length < rounds) :
    Mirrors limit ending tokens (operators inner power rounds left)
      (climb ending (.above power) left tokens) := by
  induction rounds generalizing left tokens with
  | zero => exact absurd enough (Nat.not_lt_zero _)
  | succ rounds ih =>
      apply Mirrors.onReaders
      intro reader reads
      refine Mirrors.lookKind ?_ fun _ unseen => climb_of_fault unseen _ left
      intro token seen
      apply Mirrors.ask
      intro asked knows
      dsimp only
      rw [knows.grammar_eq]
      obtain ⟨layer, member, powers, rule⟩ | ⟨absent, outside⟩ :=
        Grammar.standard_powers token.kind
      · rw [powers, rule]
        dsimp only
        have binary := Layer.ne_unary_of_mem_operators member
        by_cases weaker : layer.power ≤ power
        · have stops : Stops ending (.above power) tokens := by
            refine ⟨token, seen, fun reached => ?_⟩
            rcases Layer.mem_reach.mp reached with ⟨other, within, too⟩
            rw [← Layer.eq_of_mem_operators member too] at within
            exact (Layer.power_le_iff binary power).mp weaker within
          rw [if_pos weaker, climb_of_stops stops]
          exact Mirrors.done left
        · have within : layer.height ≤ (Layer.above power).height := by
            rw [Layer.power_le_iff binary, Decidable.not_not] at weaker
            exact weaker
          cases tokens with
          | nil =>
              rw [reads.final token seen] at member
              exact absurd member (Layer.endOfInput_not_mem_operators layer)
          | cons first rest =>
              cases seen
              rw [if_neg weaker, climb_of_operator reads.final member within]
              simp only [operator, Parse.binary, bind_assoc, pure_bind]
              have operand := expressions layer.power rest
              rw [Layer.above_power] at operand
              refine Mirrors.take (Mirrors.bind
                (fun right after => climb ending (.above power) (.binary token left right) after)
                operand ?_)
              intro right after read
              have fewer := Parsed.length_lt read
              exact ih _ after (Nat.lt_trans fewer (Nat.lt_of_succ_lt_succ enough))
      · have stops : Stops ending (.above power) tokens := by
          refine ⟨token, seen, fun reached => ?_⟩
          rcases Layer.mem_reach.mp reached with ⟨other, _, member⟩
          exact outside other member
        rw [absent, climb_of_stops stops]
        exact Mirrors.done left

/-! ## Operands -/

/-- The tightest layer is an operand and a look at the token behind it, so whoever looks there
anyway need not tell the two apart. -/
theorem result_layerFrom_bind {further : Expression → List Token →
      Except Diagnostic (α × List Token)} (tokens : List Token)
    (looks : ∀ operand diagnostic, ending = .error diagnostic →
      further operand [] = .error diagnostic) :
    ((layerFrom ending .unary tokens).result >>= fun outcome => further outcome.1 outcome.2) =
      (unaryFrom ending tokens).result >>= fun outcome => further outcome.1 outcome.2 := by
  rw [result_layerFrom_unary, bind_assoc]
  cases (unaryFrom ending tokens).result with
  | error diagnostic => rfl
  | ok outcome =>
      rcases outcome with ⟨operand, rest⟩
      change (settle ending operand rest).result >>= _ = further operand rest
      cases rest with
      | cons first rest => rfl
      | nil =>
          cases ended : ending with
          | ok token => rfl
          | error diagnostic =>
              rw [looks operand diagnostic ended]
              rfl

/-- A variable or a call, read up to the token behind it. -/
theorem reference_mirrors (name : Token) (tokens : List Token) :
    Mirrors limit ending (name :: tokens) reference (afterName ending name tokens).result := by
  apply Mirrors.take
  apply Mirrors.byKind fun tokens => (afterName ending name tokens).result
  · intro final seen
    rw [if_neg (by decide), afterName, settle, seen]
    exact Mirrors.done _
  · intro diagnostic unseen
    rw [afterName, settle, unseen]
    rfl
  · intro token rest _ _
    rw [afterName]
    by_cases opened : token.kind = .openParen
    · rw [if_pos opened, if_pos opened]
      refine Mirrors.take (Mirrors.andThen (Mirrors.expected (by decide)) ?_)
      intro _ after fewer
      exact Mirrors.done _
    · rw [if_neg opened, if_neg opened]
      exact Mirrors.done _

/-- An expression in parentheses. -/
theorem grouping_mirrors (expressions : ReadsExpressions limit ending inner)
    (tokens : List Token) :
    Mirrors limit ending tokens (grouping inner) (conditionFrom ending tokens).result := by
  apply Mirrors.andThen (Mirrors.expected (by decide))
  intro _ rest _
  apply Mirrors.andThen (expressions .lowest rest)
  intro expression after _
  apply Mirrors.andThen (Mirrors.expected (by decide))
  intro _ last _
  exact Mirrors.done expression

/-- An operand by the table of the language, and what a reader does next that looks at the token
behind it. -/
theorem operand_mirrors (expressions : ReadsExpressions limit ending inner)
    {next : Expression → Parse α}
    {further : Expression → List Token → Except Diagnostic (α × List Token)}
    (looks : ∀ operand diagnostic, ending = .error diagnostic →
      further operand [] = .error diagnostic)
    (onward : ∀ operand rest, Mirrors limit ending rest (next operand) (further operand rest))
    {token : Token} {rest : List Token} {rule : OperandRule}
    (entry : Grammar.standard.operands token.kind = some rule) :
    Mirrors limit ending (token :: rest) (operand inner rule >>= next)
      ((unaryFrom ending (token :: rest)).result >>= fun outcome =>
        further outcome.1 outcome.2) := by
  rw [Grammar.standard_operands] at entry
  by_cases negated : token.kind = .logicalNot
  · rw [if_pos negated] at entry
    cases entry
    rw [unaryFrom, if_pos negated, Parsed.result_andThen _
      (fun operand after => .ok (.unary token operand, after)) fun _ _ _ => rfl, bind_assoc]
    change Mirrors _ _ _ _ ((unaryFrom ending rest).result >>= fun outcome =>
      further (.unary token outcome.1) outcome.2)
    rw [← result_layerFrom_bind rest fun operand => looks (.unary token operand)]
    simp only [operand, unary, bind_assoc, pure_bind]
    exact Mirrors.take (Mirrors.bind (fun operand after => further (.unary token operand) after)
      (expressions .unary rest) fun operand after _ => onward _ after)
  · rw [if_neg negated] at entry
    rw [unaryFrom, if_neg negated, primaryFrom]
    by_cases literal : token.kind.isLiteral = true
    · rw [if_pos literal] at entry
      cases entry
      rw [if_pos literal]
      simp only [operand, primary, bind_assoc, pure_bind]
      exact Mirrors.take (onward _ rest)
    · rw [if_neg literal] at entry ⊢
      by_cases named : token.kind.isIdentifier = true
      · rw [if_pos named] at entry ⊢
        cases entry
        exact Mirrors.bind further (reference_mirrors token rest)
          fun operand after _ => onward operand after
      · rw [if_neg named] at entry ⊢
        by_cases opened : token.kind = .openParen
        · rw [if_pos opened] at entry ⊢
          cases entry
          have grouped := grouping_mirrors expressions (token :: rest)
          rw [conditionFrom, takeOneOf, if_pos (by simp [opened])] at grouped
          exact Mirrors.bind further grouped fun operand after _ => onward operand after
        · rw [if_neg opened] at entry
          cases entry

theorem result_unaryFrom_of_none {token : Token} {rest : List Token}
    (absent : Grammar.standard.operands token.kind = none) :
    (unaryFrom ending (token :: rest)).result = .error (notOperand token) := by
  rw [Grammar.standard_operands] at absent
  rw [unaryFrom, primaryFrom]
  repeat' split at absent
  all_goals simp_all [Parsed.result]

/-- The body of an expression is the layer above its power. -/
theorem expressionBody_mirrors (expressions : ReadsExpressions limit ending inner)
    (power : Power) (tokens : List Token) :
    Mirrors limit ending tokens (expressionBody inner power)
      (layerFrom ending (.above power) tokens).result := by
  apply Mirrors.onReaders
  intro reader reads
  rw [result_layerFrom]
  apply Mirrors.look
  · intro token seen
    apply Mirrors.ask
    intro asked knows
    rw [knows.grammar_eq]
    cases tokens with
    | nil =>
        have absent : Grammar.standard.operands token.kind = none := by
          rw [reads.final token seen]
          decide
        rw [absent, unaryFrom, primaryFrom, blame, seen]
        exact Mirrors.failed _ _
    | cons first rest =>
        cases seen
        cases entry : Grammar.standard.operands token.kind with
        | some rule =>
            refine operand_mirrors expressions ?_ ?_ entry
            · intro operand diagnostic broken
              have unseen : current ending [] = .error diagnostic := broken
              exact climb_of_fault unseen _ operand
            · intro operand after
              apply Mirrors.count
              intro rounds enough
              exact operators_mirrors expressions power rounds operand after enough
        | none =>
            rw [result_unaryFrom_of_none entry]
            exact Mirrors.failed _ _
  · intro diagnostic unseen
    cases tokens with
    | nil =>
        rw [unaryFrom, primaryFrom, blame, unseen]
        rfl
    | cons first rest => cases unseen

/-! ## Levels -/

theorem result_layerFrom_of_fault {tokens : List Token} {diagnostic : Diagnostic}
    (unseen : current ending tokens = .error diagnostic) (layer : Layer) :
    (layerFrom ending layer tokens).result = .error diagnostic := by
  cases tokens with
  | nil =>
      rw [result_layerFrom, unaryFrom, primaryFrom, blame, unseen]
      rfl
  | cons first rest => cases unseen

/-- However many levels may be opened, expressions are read as recursive descent reads them. -/
theorem within_readsExpressions (limit : Nat) (ending : Except Diagnostic Token)
    (levels : Nat) : ReadsExpressions limit ending (Productions.within limit levels) := by
  induction levels with
  | zero =>
      intro power tokens
      exact Mirrors.tooDeep fun _ unseen => result_layerFrom_of_fault unseen _
  | succ levels ih =>
      intro power tokens
      exact Mirrors.opened (expressionBody_mirrors ih power tokens)

/-- From wherever a reader stands in a source that can be cut into tokens, an expression of a power
is what the layer just above that power is: the same tree with the same tokens left, or the same
diagnostic.  The only exception is an expression that nests too deeply. -/
theorem expression_refines_layer {source : String} {file : Option String} {tokens : List Token}
    (lexed : tokenize source file = .ok tokens) {count : Nat} {reader : Reader}
    (reached : Reader.Reaches source file count reader) (power : Power) :
    TooDeep nestingLimit (expression nestingLimit power reader) ∨
      Agrees (.ok (.closing file tokens)) (expression nestingLimit power reader)
        (layer (.ok (.closing file tokens)) (.above power) (tokens.drop count)) :=
  within_readsExpressions nestingLimit (.ok (.closing file tokens))
    (nestingLimit - reader.depth) power (tokens.drop count) reader (reached.reads lexed)

/-- The `!` of `! ($x - 1 - 2 * @y) && 3` used up, a reader that is one level in reads the group as
the operand of the `!`, with nothing nested too deeply. -/
theorem expression_refines_layer_group :
    ∃ tokens, tokenize "! ($x - 1 - 2 * @y) && 3" none = .ok tokens ∧
      ∃ reader, Reader.Reaches "! ($x - 1 - 2 * @y) && 3" none 1 reader ∧
        ¬ TooDeep nestingLimit (expression nestingLimit .unary reader) ∧
        Agrees (.ok (.closing none tokens)) (expression nestingLimit .unary reader)
          (layer (.ok (.closing none tokens)) (.above .unary) (tokens.drop 1)) := by
  have lexes : (tokenize "! ($x - 1 - 2 * @y) && 3" none).isOk = true := by
    decide +kernel
  have reads :
      (match advance { Reader.ofSource "! ($x - 1 - 2 * @y) && 3" none with
          depth := 1, deepest := 1 } with
        | .ok _ after =>
            match expression nestingLimit .unary after with
            | .ok _ _ => true
            | .error _ _ => false
        | .error _ _ => false) = true := by
    decide +kernel
  have begun := @Reader.Reaches.start "! ($x - 1 - 2 * @y) && 3" none 1 1
  cases lexed : tokenize "! ($x - 1 - 2 * @y) && 3" none with
  | error diagnostic =>
      rw [lexed] at lexes
      cases lexes
  | ok tokens =>
      cases used : advance { Reader.ofSource "! ($x - 1 - 2 * @y) && 3" none with
          depth := 1, deepest := 1 } with
      | error halt after =>
          rw [used] at reads
          cases reads
      | ok operator after =>
          rw [used] at reads
          have shallow : ¬ TooDeep nestingLimit (expression nestingLimit .unary after) := by
            rintro ⟨position, last, deep⟩
            simp only [deep, Bool.false_eq_true] at reads
          refine ⟨tokens, rfl, after, begun.advance used, shallow, ?_⟩
          exact (expression_refines_layer lexed (begun.advance used) .unary).resolve_left shallow

end Parse

end Scriptlet
