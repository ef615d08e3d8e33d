import Scriptlet.Proofs.Derivation.Nodes
import Scriptlet.Proofs.Tables.Yield

/-!
# Precedence under any table of powers

Operators are joined to their operands by climbing: a loop takes operators for as long as they bind
more strongly than a bound, and reads the right operand of each with the power of the operator as
the new bound.  Whatever powers are registered, and whatever rules operands have, the trees come out
nested by power (`Expression.Nests`), with operators of one power grouped to the left.

The invariant of the loop is about the operand on the left and the token in view: if the operand is
joined by an operator, no operator in view binds more strongly than that one.
-/

namespace Scriptlet

/-! ## Powers in a tree -/

/-- A token is in view that does not bind more strongly than `power`. -/
def StopsAt (powers : Table Power) (power : Power) (view : Option Token) : Prop :=
  ∃ next, view = some next ∧ ∀ other, powers next.kind = some other → other ≤ power

namespace Expression

/-- If an operator joins two operands at the root, its power is as required. -/
def RootPower (powers : Table Power) (required : Power → Prop) : Expression → Prop
  | .binary operator _ _ => ∃ power, powers operator.kind = some power ∧ required power
  | _ => True

/-- The expression does not join two operands at its root. -/
def NotBinary (value : Expression) : Prop :=
  ∀ operator left right, value ≠ .binary operator left right

/-- Operators are nested by their powers: every one binds more strongly than the lowest power, no
more strongly than an operator at the root of its left operand, and less strongly than one at the
root of its right operand. -/
def Nests (powers : Table Power) : Expression → Prop
  | .binary operator left right =>
      (∃ power, powers operator.kind = some power ∧ .lowest < power ∧
        left.RootPower powers (power ≤ ·) ∧ right.RootPower powers (power < ·)) ∧
      left.Nests powers ∧ right.Nests powers
  | .unary _ operand => operand.NotBinary ∧ operand.Nests powers
  | .atom _ => True
  | .call _ => True

variable {powers : Table Power} {required weaker : Power → Prop} {value : Expression}

theorem NotBinary.rootPower (single : value.NotBinary) : value.RootPower powers required := by
  cases value with
  | binary operator left right => exact absurd rfl (single operator left right)
  | unary | atom | call => trivial

theorem RootPower.mono (holds : value.RootPower powers required)
    (implies : ∀ power, required power → weaker power) : value.RootPower powers weaker := by
  cases value with
  | binary operator left right =>
      obtain ⟨power, known, meets⟩ := holds
      exact ⟨power, known, implies power meets⟩
  | unary | atom | call => trivial

/-- No power is above that of unary operators. -/
theorem RootPower.notBinary (holds : value.RootPower powers (.unary < ·)) : value.NotBinary := by
  rintro operator left right rfl
  obtain ⟨power, _, above⟩ := holds
  cases power <;> revert above <;> decide

end Expression

/-! ## Inputs without groups -/

/-- The reader has these tables, and no parenthesis opens in what it is going to see. -/
structure Reader.Flat (grammar : Grammar) (reader : Reader) : Prop where
  grammar_eq : reader.grammar = grammar
  honest : reader.EndsTrue
  ungrouped : ∀ token ∈ reader.stream.tokens, token.kind ≠ .openParen

namespace Reader.Flat

variable {grammar : Grammar} {reader after : Reader} {token : Token} {used : List Token}

theorem uses (flat : reader.Flat grammar) (uses : reader.Uses used after) : after.Flat grammar where
  grammar_eq := uses.grammar.trans flat.grammar_eq
  honest := uses.honest
  ungrouped token member := flat.ungrouped token (uses.yields.tokens_subset member)

theorem used_ne (flat : reader.Flat grammar) (uses : reader.Uses used after) :
    ∀ token ∈ used, token.kind ≠ .openParen := by
  intro token member
  obtain ahead | final := uses.yields.mem_tokens member
  · exact flat.ungrouped token ahead
  · rw [final]
    decide

theorem view_ne (flat : reader.Flat grammar) (seen : reader.lookahead = some token) :
    token.kind ≠ .openParen := by
  have used : Parse.advance reader = .ok token { reader with lookahead := none } := by
    rw [Parse.advance, seen]
  exact flat.used_ne (uses_of_advance flat.honest used).1 token (List.mem_singleton_self token)

end Reader.Flat

/-! ## Productions -/

namespace Parse

variable {grammar : Grammar} {inner : Productions} {reader : Reader}

/-- What an expression of a power comes out as. -/
def Climbed (grammar : Grammar) (power : Power) (value : Expression) (used : List Token)
    (view : Option Token) : Prop :=
  value.Nests grammar.powers ∧ value.RootPower grammar.powers (power < ·) ∧
    used = value.tokens ∧ StopsAt grammar.powers power view

/-- What an operand comes out as, when nothing is grouped. -/
def Single (grammar : Grammar) (value : Expression) (used : List Token) (_ : Option Token) :
    Prop :=
  value.Nests grammar.powers ∧ value.NotBinary ∧ used = value.tokens

/-- The invariant of the loop over operators: the operand on the left is nested by power, its
operator binds more strongly than the bound, and nothing in view binds more strongly than its
operator. -/
structure Settled (grammar : Grammar) (power : Power) (left : Expression) (view : Option Token) :
    Prop where
  nests : left.Nests grammar.powers
  root : left.RootPower grammar.powers (power < ·)
  ready : left.RootPower grammar.powers (StopsAt grammar.powers · view)

/-- Looking at a token changes nothing if it was in view. -/
theorem Settled.look {power : Power} {left : Expression} {view later : Option Token}
    (settled : Settled grammar power left view) (kept : ∀ next, view = some next → later = view) :
    Settled grammar power left later := by
  refine ⟨settled.nests, settled.root, settled.ready.mono ?_⟩
  rintro bound ⟨next, rfl, weak⟩
  exact ⟨next, kept next rfl, weak⟩

/-- Inner expressions come out nested by power. -/
def Climbs (grammar : Grammar) (inner : Productions) : Prop :=
  ∀ power, ∀ reader : Reader, reader.Flat grammar →
    Meets True (Climbed grammar power) reader (inner.expression power reader)

theorem single_atom (token : Token) (view : Option Token) :
    Single grammar (.atom token) [token] view :=
  ⟨trivial, by rintro _ _ _ ⟨⟩, rfl⟩

/-- A name is never called where no parenthesis opens. -/
theorem reference_single (flat : reader.Flat grammar) :
    Meets True (Single grammar) reader (reference reader) := by
  apply (Meets.advance flat.honest).bind
  rintro name _ after uses ⟨rfl, _⟩
  have behind := flat.uses uses
  apply Meets.lookKind behind.honest
  intro next last onward seen _
  have plain := (behind.uses onward).view_ne seen
  rw [if_neg plain]
  exact .done onward.honest (single_atom name _)

/-- Nothing is grouped where no parenthesis opens. -/
theorem grouping_single (flat : reader.Flat grammar) :
    Meets True (Single grammar) reader (grouping inner reader) := by
  apply (Meets.expectOneOf flat.honest).bind
  rintro opening _ after uses ⟨rfl, opens⟩
  have plain := flat.used_ne uses opening (List.mem_singleton_self opening)
  exact absurd (List.mem_singleton.mp opens) plain

variable (climbs : Climbs grammar inner)
include climbs

theorem unary_single (flat : reader.Flat grammar) :
    Meets True (Single grammar) reader (unary inner reader) := by
  apply (Meets.advance flat.honest).bind
  rintro operator _ after uses ⟨rfl, _⟩
  apply (climbs .unary after (flat.uses uses)).bind
  rintro operand _ last onward ⟨nests, root, rfl, _⟩
  refine .done onward.honest ⟨⟨root.notBinary, nests⟩, ?_, ?_⟩
  · rintro _ _ _ ⟨⟩
  · simp [Expression.tokens]

/-- An operand by any rule for it. -/
theorem operand_single (flat : reader.Flat grammar) (rule : OperandRule) :
    Meets True (Single grammar) reader (operand inner rule reader) := by
  cases rule with
  | primary =>
      apply (Meets.advance flat.honest).bind
      rintro token _ after uses ⟨rfl, _⟩
      exact .done uses.honest (single_atom token _)
  | reference => exact reference_single flat
  | unary => exact unary_single climbs flat
  | grouping => exact grouping_single flat

/-- An operator in view and its right operand, after a left operand that it does not take apart. -/
theorem operator_settled {power next : Power} {left : Expression} {token : Token}
    (flat : reader.Flat grammar) (settled : Settled grammar power left reader.lookahead)
    (seen : reader.lookahead = some token) (known : grammar.powers token.kind = some next)
    (above : power < next) (rule : OperatorRule) :
    Meets True
      (fun value used view => Settled grammar power value view ∧ left.tokens ++ used = value.tokens)
      reader (operator inner left next rule reader) := by
  cases rule with
  | binary =>
      apply (Meets.advance flat.honest).bind
      rintro operator _ after uses ⟨rfl, inView⟩
      rw [inView token seen]
      apply (climbs next after (flat.uses uses)).bind
      rintro right _ last onward ⟨nests, root, rfl, stops⟩
      -- What joins the left operand was there when the operator came into view.
      have joined : left.RootPower grammar.powers (next ≤ ·) := by
        apply settled.ready.mono
        rintro bound ⟨shown, view, weak⟩
        rw [seen] at view
        cases view
        exact weak next known
      have positive : Power.lowest < next := Nat.lt_of_le_of_lt (Nat.zero_le _) above
      refine .done onward.honest ⟨⟨⟨⟨next, known, positive, joined, root⟩, settled.nests, nests⟩,
        ⟨next, known, above⟩, ⟨next, known, stops⟩⟩, ?_⟩
      simp [Expression.tokens]

/-- The loop over operators, by its invariant. -/
theorem operators_climbed (paired : grammar.Paired) (power : Power) (rounds : Nat)
    {left : Expression} (flat : reader.Flat grammar)
    (settled : Settled grammar power left reader.lookahead) :
    Meets True
      (fun value used view => Climbed grammar power value (left.tokens ++ used) view)
      reader (operators inner power rounds left reader) := by
  induction rounds generalizing left reader with
  | zero => exact fun _ => trivial
  | succ rounds ih =>
      apply Meets.lookKind flat.honest
      intro token after uses seen inView
      have here := flat.uses uses
      have settled : Settled grammar power left after.lookahead :=
        settled.look fun next held => by rw [seen, held, inView next held]
      have stop : (∀ other, grammar.powers token.kind = some other → other ≤ power) →
          Meets True (fun value used view => Climbed grammar power value (left.tokens ++ used) view)
            after ((pure left : Parse Expression) after) := by
        intro weak
        exact .done here.honest
          ⟨settled.nests, settled.root, List.append_nil _, token, seen, weak⟩
      apply Meets.consult
      rw [here.grammar_eq]
      have both := paired token.kind
      cases known : grammar.powers token.kind with
      | none =>
          apply stop
          rw [known]
          rintro _ ⟨⟩
      | some next =>
          rw [known] at both
          obtain ⟨rule, ruled⟩ := Option.isSome_iff_exists.mp both.symm
          simp only [ruled]
          by_cases weak : next ≤ power
          · rw [if_pos weak]
            apply stop
            rw [known]
            rintro _ ⟨⟩
            exact weak
          · rw [if_neg weak]
            have above : power < next := Nat.lt_of_not_le weak
            apply (operator_settled climbs here settled seen known above rule).bind
            rintro value used last onward ⟨settled, tokens⟩
            refine (ih (here.uses onward) settled).mono ?_
            intro result more view climbed
            rw [← List.append_assoc, tokens]
            exact climbed

theorem expressionBody_climbed (paired : grammar.Paired) (power : Power)
    (flat : reader.Flat grammar) :
    Meets True (Climbed grammar power) reader (expressionBody inner power reader) := by
  apply Meets.look flat.honest
  intro token after uses seen _
  have here := flat.uses uses
  apply Meets.consult
  cases after.grammar.operands token.kind with
  | none => exact .failed _ _
  | some rule =>
      apply (operand_single climbs here rule).bind
      rintro left _ last onward ⟨nests, single, rfl⟩
      exact operators_climbed climbs paired power _ (here.uses onward)
        ⟨nests, single.rootPower, single.rootPower⟩

omit climbs

/-- Expressions come out nested by power at every level. -/
theorem within_climbs (paired : grammar.Paired) (limit levels : Nat) :
    Climbs grammar (Productions.within limit levels) := by
  induction levels with
  | zero => exact fun _ _ flat => .tooDeep flat.honest limit
  | succ levels ih =>
      intro power reader flat
      have inside : reader.entered.Flat grammar := ⟨flat.grammar_eq, flat.honest, flat.ungrouped⟩
      exact .opened (expressionBody_climbed ih paired power inside)

end Parse

/-! ## Whole expressions -/

/-- Precedence and associativity, whatever has been registered before and wherever the reader
stands.  The tokens of the tree are those that were used up, and what is in view then is not an
operator that binds more strongly than asked for. -/
theorem expression_climbs {source : String} {file : Option String} {level : Nat}
    {reader after : Reader} {power : Power} {value : Expression}
    (reached : Reader.Reached source file level reader)
    (ungrouped : ∀ token ∈ reader.stream.tokens, token.kind ≠ .openParen)
    (read : Parse.expression Parse.nestingLimit power reader = .ok value after) :
    value.Nests reader.grammar.powers ∧ value.RootPower reader.grammar.powers (power < ·) ∧
      reader.stream.Yields value.tokens after.stream ∧
      StopsAt reader.grammar.powers power after.lookahead := by
  have flat : reader.Flat reader.grammar := ⟨rfl, reached.endsTrue, ungrouped⟩
  have climbed := Parse.within_climbs reached.fit.paired Parse.nestingLimit
    (Parse.nestingLimit - reader.depth) power reader flat
  rw [Parse.expression, Parse.start] at read
  rw [read] at climbed
  obtain ⟨_, uses, nests, root, rfl, stops⟩ := climbed
  exact ⟨nests, root, uses.yields, stops⟩

/-- A language of its own: `-` also stands in front of operands, `*` is the weakest operator that
binds, `=` binds as strongly as what stands in front, and `;` is an operator that never binds. -/
theorem expression_climbs_registered :
    ∃ reader value after, Reader.Reached "-1 + $a = @b * %c - -2; 3" none 0 reader ∧
      Parse.expression Parse.nestingLimit .lowest reader = .ok value after ∧
      value.token.value = "*" ∧ value.tokens.length = 11 ∧
      value.Nests reader.grammar.powers ∧ value.RootPower reader.grammar.powers (.lowest < ·) ∧
      reader.stream.Yields value.tokens after.stream ∧
      StopsAt reader.grammar.powers .lowest after.lookahead := by
  have negates := (@Reader.Reached.start "-1 + $a = @b * %c - -2; 3" none).perform
    (.registerOperand .dash .unary)
  have weakens := negates.perform (.registerOperator .star .logicalOr .binary)
  have strengthens := weakens.perform (.registerOperator .assign .unary .binary)
  have reached := strengthens.perform (.registerOperator .semicolon .lowest .binary)
  generalize started : (Reader.perform _ (.registerOperator .semicolon .lowest .binary)).2 = reader
    at reached
  have shape : (match Parse.expression Parse.nestingLimit .lowest reader with
      | .ok value _ => value.token.value == "*" && value.tokens.length == 11
      | .error _ _ => false) = true := by
    rw [← started]
    decide +kernel
  have ungrouped : ∀ token ∈ reader.stream.tokens, token.kind ≠ .openParen := by
    rw [← started]
    decide +kernel
  cases read : Parse.expression Parse.nestingLimit .lowest reader with
  | error halt after =>
      rw [read] at shape
      cases shape
  | ok value after =>
      rw [read, Bool.and_eq_true, beq_iff_eq, beq_iff_eq] at shape
      exact ⟨reader, value, after, reached, read, shape.1, shape.2,
        expression_climbs reached ungrouped read⟩

end Scriptlet
