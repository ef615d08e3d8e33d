import Scriptlet.Proofs.Reading.Mirror

/-!
# Powers against layers

The reader joins all operators in one loop, which compares powers; recursive descent has a loop for
each layer.  `climb` is the bridge: everything that the layers up to a given one still do once the
first operand has been read.  Before an operator the layers tighter than it do nothing, and behind
its right operand they have nothing left to do, so one round of the loop is one step of `climb`
(`climb_of_operator`), whatever the operators around it.
-/

namespace Scriptlet

open Descent

namespace Descent

variable {α β : Type} {bound other : Nat} {ending : Except Diagnostic Token}

namespace Parsed

theorem result_andThen (parsed : Parsed α bound)
    {next : α → (rest : List Token) → rest.length < bound → Parsed β other}
    (further : α → List Token → Except Diagnostic (β × List Token))
    (agree : ∀ value rest fewer, (next value rest fewer).result = further value rest) :
    (parsed.andThen next).result =
      parsed.result >>= fun outcome => further outcome.1 outcome.2 := by
  cases parsed with
  | done value rest fewer => exact agree value rest fewer
  | stopped diagnostic => rfl

@[simp] theorem result_widen (within : bound ≤ other) (parsed : Parsed α bound) :
    (parsed.widen within).result = parsed.result := by
  cases parsed <;> rfl

end Parsed

namespace Layer

/-- Every layer, the loosest first. -/
def all : List Layer := [.logicalOr, .logicalAnd, .additive, .multiplicative, .unary]

/-- Operators of this layer and of all tighter ones. -/
def reach (layer : Layer) : List TokenKind :=
  (all.filter fun other => other.height ≤ layer.height).flatMap operators

/-- What holds of the tightest layer, and of a layer whenever it holds of the next tighter one,
holds of every layer. -/
theorem induction {motive : Layer → Prop} (unary : motive .unary)
    (binary : ∀ layer, layer ≠ .unary → motive layer.tighter → motive layer) :
    ∀ layer, motive layer := by
  have multiplicative := binary .multiplicative (by decide) unary
  have additive := binary .additive (by decide) multiplicative
  have logicalAnd := binary .logicalAnd (by decide) additive
  have logicalOr := binary .logicalOr (by decide) logicalAnd
  intro layer
  cases layer <;> assumption

theorem mem_reach_iff {layer : Layer} (binary : layer ≠ .unary) (kind : TokenKind) :
    kind ∈ layer.reach ↔ kind ∈ layer.operators ∨ kind ∈ layer.tighter.reach := by
  cases layer with
  | unary => exact absurd rfl binary
  | _ => simp [reach, all, operators, tighter, height, or_assoc]

theorem mem_all (layer : Layer) : layer ∈ all := by
  cases layer <;> decide

/-- A kind is in reach of a layer if it is an operator there or further in. -/
theorem mem_reach {layer : Layer} {kind : TokenKind} :
    kind ∈ layer.reach ↔ ∃ other : Layer, other.height ≤ layer.height ∧
      kind ∈ other.operators := by
  simp [reach, mem_all]

/-- An operator belongs to one layer only. -/
theorem eq_of_mem_operators {layer other : Layer} {kind : TokenKind}
    (member : kind ∈ layer.operators) (too : kind ∈ other.operators) : layer = other := by
  have separate : ∀ layer ∈ all, ∀ other ∈ all, ∀ kind ∈ layer.operators,
      kind ∈ other.operators → layer = other := by
    decide
  exact separate layer (mem_all layer) other (mem_all other) kind member too

theorem ne_unary_of_mem_operators {layer : Layer} {kind : TokenKind}
    (member : kind ∈ layer.operators) : layer ≠ .unary := by
  rintro rfl
  simp [operators] at member

theorem not_mem_reach_tighter {layer : Layer} {kind : TokenKind}
    (member : kind ∈ layer.operators) : kind ∉ layer.tighter.reach := by
  intro reached
  rcases mem_reach.mp reached with ⟨other, within, too⟩
  have binary := ne_unary_of_mem_operators member
  rw [← eq_of_mem_operators member too] at within
  exact absurd within (Nat.not_le_of_lt (height_tighter binary))

theorem endOfInput_not_mem_operators (layer : Layer) : .endOfInput ∉ layer.operators := by
  cases layer <;> decide

theorem eq_or_height_le_tighter {layer other : Layer} (within : other.height ≤ layer.height) :
    other = layer ∨ other.height ≤ layer.tighter.height := by
  revert within
  cases layer <;> cases other <;> decide

end Layer

/-! ## The layers after a first operand -/

/-- What the layers up to `layer` do after their first operand, the tightest layer first. -/
def climb (ending : Except Diagnostic Token) (layer : Layer) (left : Expression)
    (tokens : List Token) : Except Diagnostic (Expression × List Token) :=
  if _ : layer = .unary then
    (settle ending left tokens).result
  else
    climb ending layer.tighter left tokens >>= fun outcome =>
      (moreFrom ending layer outcome.1 outcome.2).result
termination_by layer.height
decreasing_by exact Layer.height_tighter ‹_›

theorem climb_unary (left : Expression) (tokens : List Token) :
    climb ending .unary left tokens = (settle ending left tokens).result := by
  rw [climb, dif_pos rfl]

theorem climb_binary {layer : Layer} (binary : layer ≠ .unary) (left : Expression)
    (tokens : List Token) :
    climb ending layer left tokens =
      climb ending layer.tighter left tokens >>= fun outcome =>
        (moreFrom ending layer outcome.1 outcome.2).result := by
  rw [climb, dif_neg binary]

theorem result_layerFrom_unary (tokens : List Token) :
    (layerFrom ending .unary tokens).result =
      (unaryFrom ending tokens).result >>= fun outcome =>
        (settle ending outcome.1 outcome.2).result := by
  rw [layerFrom, dif_pos rfl]
  exact Parsed.result_andThen _ (fun operand rest => (settle ending operand rest).result)
    fun _ _ _ => Parsed.result_widen _ _

theorem result_layerFrom_binary {layer : Layer} (binary : layer ≠ .unary)
    (tokens : List Token) :
    (layerFrom ending layer tokens).result =
      (layerFrom ending layer.tighter tokens).result >>= fun outcome =>
        (moreFrom ending layer outcome.1 outcome.2).result := by
  rw [layerFrom, dif_neg binary]
  exact Parsed.result_andThen _ (fun left rest => (moreFrom ending layer left rest).result)
    fun _ _ _ => Parsed.result_widen _ _

theorem result_moreFrom_operator {layer : Layer} {token : Token}
    (member : token.kind ∈ layer.operators) (left : Expression) (rest : List Token) :
    (moreFrom ending layer left (token :: rest)).result =
      (layerFrom ending layer.tighter rest).result >>= fun outcome =>
        (moreFrom ending layer (.binary token left outcome.1) outcome.2).result := by
  rw [moreFrom, if_pos member]
  exact Parsed.result_andThen _
    (fun right after => (moreFrom ending layer (.binary token left right) after).result)
    fun _ _ _ => Parsed.result_widen _ _

/-- A layer is its first operand, and then everything that the layers up to it do. -/
theorem result_layerFrom (layer : Layer) (tokens : List Token) :
    (layerFrom ending layer tokens).result =
      (unaryFrom ending tokens).result >>= fun outcome =>
        climb ending layer outcome.1 outcome.2 := by
  induction layer using Layer.induction with
  | unary =>
      simp only [climb_unary]
      exact result_layerFrom_unary tokens
  | binary layer binary ih =>
      simp only [result_layerFrom_binary binary, climb_binary binary, ih, bind_assoc]

/-! ## Where layers stop -/

/-- The current token is there, and joins no operands of the layer or of a tighter one. -/
def Stops (ending : Except Diagnostic Token) (layer : Layer) (tokens : List Token) : Prop :=
  ∃ token, current ending tokens = .ok token ∧ token.kind ∉ layer.reach

theorem moreFrom_of_stops {layer : Layer} {tokens : List Token} {token : Token}
    (seen : current ending tokens = .ok token) (outside : token.kind ∉ layer.operators)
    (left : Expression) : (moreFrom ending layer left tokens).result = .ok (left, tokens) := by
  cases tokens with
  | nil =>
      rw [moreFrom, settle, seen]
      rfl
  | cons first rest =>
      cases seen
      rw [moreFrom, if_neg outside]
      rfl

theorem climb_of_stops {layer : Layer} {tokens : List Token}
    (stops : Stops ending layer tokens) (left : Expression) :
    climb ending layer left tokens = .ok (left, tokens) := by
  rcases stops with ⟨token, seen, outside⟩
  induction layer using Layer.induction with
  | unary =>
      rw [climb_unary, settle, seen]
      rfl
  | binary layer binary ih =>
      rw [Layer.mem_reach_iff binary, not_or] at outside
      rw [climb_binary binary, ih outside.2]
      exact moreFrom_of_stops seen outside.1 left

/-- Climbing looks at the token behind the operand, so a fault there ends it. -/
theorem climb_of_fault {diagnostic : Diagnostic} {tokens : List Token}
    (unseen : current ending tokens = .error diagnostic) (layer : Layer) (left : Expression) :
    climb ending layer left tokens = .error diagnostic := by
  induction layer using Layer.induction with
  | unary =>
      rw [climb_unary, settle, unseen]
      rfl
  | binary layer binary ih =>
      rw [climb_binary binary, ih]
      rfl

section Endings

variable (final : ∀ token, ending = .ok token → token.kind = .endOfInput)
include final

/-- Further operands are read up to a token that joins none. -/
theorem moreFrom_stops {layer : Layer} (binary : layer ≠ .unary)
    (operands : ∀ tokens operand rest,
      (layerFrom ending layer.tighter tokens).result = .ok (operand, rest) →
        Stops ending layer.tighter rest)
    (left : Expression) (tokens : List Token) (stops : Stops ending layer.tighter tokens)
    {expression : Expression} {rest : List Token}
    (read : (moreFrom ending layer left tokens).result = .ok (expression, rest)) :
    Stops ending layer rest := by
  induction length : tokens.length using Nat.strongRecOn generalizing left tokens with
  | ind size ih =>
      rcases stops with ⟨token, seen, outside⟩
      by_cases member : token.kind ∈ layer.operators
      · cases tokens with
        | nil =>
            rw [final token seen] at member
            exact absurd member (Layer.endOfInput_not_mem_operators layer)
        | cons first others =>
            cases seen
            rw [result_moreFrom_operator member] at read
            cases operand : layerFrom ending layer.tighter others with
            | stopped diagnostic =>
                rw [operand] at read
                cases read
            | done right after fewer =>
                have next := operands others right after (by rw [operand]; rfl)
                have smaller : after.length < size := length ▸ Nat.lt_succ_of_lt fewer
                rw [operand] at read
                exact ih after.length smaller _ after next read rfl
      · rw [moreFrom_of_stops seen member] at read
        cases read
        refine ⟨token, seen, ?_⟩
        rw [Layer.mem_reach_iff binary, not_or]
        exact ⟨member, outside⟩

/-- A layer is read up to a token that joins none of its operands. -/
theorem layerFrom_stops (layer : Layer) :
    ∀ tokens expression rest, (layerFrom ending layer tokens).result = .ok (expression, rest) →
      Stops ending layer rest := by
  induction layer using Layer.induction with
  | unary =>
      intro tokens expression rest read
      rw [result_layerFrom_unary] at read
      cases operand : (unaryFrom ending tokens).result with
      | error diagnostic =>
          rw [operand] at read
          cases read
      | ok outcome =>
          rw [operand] at read
          change (settle ending outcome.1 outcome.2).result = _ at read
          cases seen : current ending outcome.2 with
          | error diagnostic =>
              rw [settle, seen] at read
              cases read
          | ok token =>
              rw [settle, seen] at read
              cases read
              exact ⟨token, seen, by simp [Layer.reach, Layer.all, Layer.height, Layer.operators]⟩
  | binary layer binary ih =>
      intro tokens expression rest read
      rw [result_layerFrom_binary binary] at read
      cases operand : (layerFrom ending layer.tighter tokens).result with
      | error diagnostic =>
          rw [operand] at read
          cases read
      | ok outcome =>
          rw [operand] at read
          exact moreFrom_stops final binary ih outcome.1 outcome.2
            (ih tokens outcome.1 outcome.2 operand) read

/-- An operator in reach takes its right operand from the layers tighter than its own, and climbing
goes on from there. -/
theorem climb_of_operator {layer other : Layer} {token : Token}
    (member : token.kind ∈ other.operators) (within : other.height ≤ layer.height)
    (left : Expression) (rest : List Token) :
    climb ending layer left (token :: rest) =
      (layerFrom ending other.tighter rest).result >>= fun outcome =>
        climb ending layer (.binary token left outcome.1) outcome.2 := by
  induction layer using Layer.induction with
  | unary =>
      have tightest : other = .unary := by
        revert within
        cases other <;> decide
      exact absurd tightest (Layer.ne_unary_of_mem_operators member)
  | binary layer binary ih =>
      simp only [climb_binary binary]
      cases Layer.eq_or_height_le_tighter within with
      | inr tighter =>
          rw [ih tighter, bind_assoc]
      | inl same =>
          cases same
          -- Tighter layers neither want this operator nor anything behind its right operand.
          have before : Stops ending other.tighter (token :: rest) :=
            ⟨token, rfl, Layer.not_mem_reach_tighter member⟩
          rw [climb_of_stops before]
          change (moreFrom ending other left (token :: rest)).result = _
          rw [result_moreFrom_operator member]
          cases operand : (layerFrom ending other.tighter rest).result with
          | error diagnostic => rfl
          | ok outcome =>
              have behind := layerFrom_stops final other.tighter rest _ _ operand
              change (moreFrom ending other _ outcome.2).result =
                climb ending other.tighter _ outcome.2 >>= _
              rw [climb_of_stops behind]
              rfl

end Endings

end Descent

end Scriptlet
