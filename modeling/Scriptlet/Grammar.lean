import Scriptlet.Token.Basic

/-!
# Grammars

How tokens combine is data: tables that say, for each kind of token, which statement it begins, how
an operand that begins with it is read, and how strongly it binds as an operator between two
operands. `Grammar.standard` is the language itself; registering a rule changes a table at one kind
and nowhere else.
-/

namespace Scriptlet

/-- How strongly an operator binds, from the weakest to the strongest. -/
inductive Power where
  | lowest
  | logicalOr
  | logicalAnd
  | additive
  | multiplicative
  | unary
  deriving DecidableEq, Repr

namespace Power

/-- Every power in ascending order. -/
def all : List Power := [.lowest, .logicalOr, .logicalAnd, .additive, .multiplicative, .unary]

/-- The place of a power in the order. -/
def rank : Power → Nat
  | .lowest => 0
  | .logicalOr => 1
  | .logicalAnd => 2
  | .additive => 3
  | .multiplicative => 4
  | .unary => 5

/-- One power is weaker than another if it comes before it in the order. -/
instance : LT Power := ⟨fun left right => left.rank < right.rank⟩

instance : LE Power := ⟨fun left right => left.rank ≤ right.rank⟩

instance (left right : Power) : Decidable (left < right) :=
  inferInstanceAs (Decidable (left.rank < right.rank))

instance (left right : Power) : Decidable (left ≤ right) :=
  inferInstanceAs (Decidable (left.rank ≤ right.rank))

end Power

/-- The productions that a statement can be read by. -/
inductive StatementRule where
  | conditional
  | loop
  | block
  | assignment
  deriving DecidableEq, Repr

/-- The productions that an operand can be read by. -/
inductive OperandRule where
  /-- The token alone. -/
  | primary
  /-- The token alone, or a call if parentheses follow. -/
  | reference
  /-- The token as an operator, and its operand. -/
  | unary
  /-- An expression in parentheses. -/
  | grouping
  deriving DecidableEq, Repr

/-- The productions that an operator with its right operand can be read by. -/
inductive OperatorRule where
  /-- The operator and an operand that binds more strongly. -/
  | binary
  deriving DecidableEq, Repr

/-- A table of rules, by kind of token. -/
abbrev Table (rule : Type) := TokenKind → Option rule

namespace Table

variable {rule : Type}

/-- The table with one entry changed. -/
def register (table : Table rule) (kind : TokenKind) (entry : rule) : Table rule :=
  fun other => if other = kind then some entry else table other

/-- The kinds that have an entry. -/
def kinds (table : Table rule) : List TokenKind :=
  TokenKind.all.filter fun kind => (table kind).isSome

@[simp] theorem register_self (table : Table rule) (kind : TokenKind) (entry : rule) :
    table.register kind entry kind = some entry := by
  simp [register]

theorem register_of_ne (table : Table rule) {kind other : TokenKind} (entry : rule)
    (different : other ≠ kind) : table.register kind entry other = table other := by
  simp [register, different]

end Table

/-- What a reader knows about the language. -/
structure Grammar where
  statements : Table StatementRule
  operands : Table OperandRule
  operators : Table OperatorRule
  powers : Table Power

namespace Grammar

/-- Let a kind of token begin a statement. -/
def registerStatement (grammar : Grammar) (kind : TokenKind) (rule : StatementRule) : Grammar :=
  { grammar with statements := grammar.statements.register kind rule }

/-- Let a kind of token begin an operand. -/
def registerOperand (grammar : Grammar) (kind : TokenKind) (rule : OperandRule) : Grammar :=
  { grammar with operands := grammar.operands.register kind rule }

/-- Let a kind of token be an operator that binds with the given power. -/
def registerOperator (grammar : Grammar) (kind : TokenKind) (power : Power)
    (rule : OperatorRule) : Grammar :=
  { grammar with
    operators := grammar.operators.register kind rule
    powers := grammar.powers.register kind power }

/-- The operators between two operands, with their powers. -/
def standardOperators : List (TokenKind × Power) :=
  [(.logicalOr, .logicalOr), (.logicalAnd, .logicalAnd), (.plus, .additive), (.dash, .additive),
    (.star, .multiplicative), (.slash, .multiplicative), (.percent, .multiplicative)]

/-- The tokens that begin an operand. -/
def standardOperands : List (TokenKind × OperandRule) :=
  TokenKind.literals.map (·, .primary) ++ TokenKind.identifiers.map (·, .reference) ++
    [(.logicalNot, .unary), (.openParen, .grouping)]

/-- The tokens that begin a statement. -/
def standardStatements : List (TokenKind × StatementRule) :=
  [(.ifWord, .conditional), (.whileWord, .loop), (.openCurly, .block)] ++
    TokenKind.identifiers.map (·, .assignment)

/-- The grammar of the language. -/
def standard : Grammar where
  statements := fun kind => standardStatements.lookup kind
  operands := fun kind => standardOperands.lookup kind
  operators := fun kind => (standardOperators.lookup kind).map fun _ => .binary
  powers := fun kind => standardOperators.lookup kind

end Grammar

end Scriptlet
