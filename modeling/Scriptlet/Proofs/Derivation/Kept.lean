import Scriptlet.Proofs.Derivation.Nodes

/-!
# No token is lost

A tree keeps variables, literals and operators, and what it keeps are all such tokens of the source,
in their order.  The other tokens only mark the shape of the tree: reserved words, braces, `=` and
`;` are as many as the statements and clauses that they belong to, and parentheses come in pairs
(`parse_builtOf`).
-/

namespace Scriptlet

namespace TokenKind

/-- The kinds of tokens that stand between operands or before them. -/
def operators : List TokenKind :=
  [.logicalOr, .logicalAnd, .plus, .dash, .star, .slash, .percent, .logicalNot]

/-- Whether trees keep tokens of the kind. -/
def isKept (kind : TokenKind) : Bool :=
  kind.isIdentifier || kind.isLiteral || kind ∈ operators

/-- The kinds of tokens that statements are recognised by. -/
def frames : List TokenKind :=
  [.ifWord, .elseWord, .whileWord, .openCurly, .closeCurly, .assign, .semicolon]

/-- Parentheses. -/
def parens : List TokenKind := [.openParen, .closeParen]

theorem isKept_of_isLiteral {kind : TokenKind} (literal : kind.isLiteral = true) :
    kind.isKept = true := by
  simp [isKept, literal]

theorem isKept_of_isIdentifier {kind : TokenKind} (named : kind.isIdentifier = true) :
    kind.isKept = true := by
  simp [isKept, named]

/-- Operators between two operands are kept. -/
theorem isKept_of_powers {kind : TokenKind} {power : Power}
    (binds : Grammar.standard.powers kind = some power) : kind.isKept = true := by
  have table : ∀ kind ∈ all, (Grammar.standard.powers kind).isSome → kind.isKept = true := by
    decide
  exact table kind (mem_all kind) (by simp [binds])

/-- What is kept marks no statement and is no parenthesis. -/
theorem not_mem_of_isKept {kind : TokenKind} (kept : kind.isKept = true) :
    kind ∉ frames ++ parens := by
  have table : ∀ kind ∈ frames ++ parens, kind.isKept = false := by decide
  intro member
  rw [table kind member] at kept
  cases kept

end TokenKind

/-! ## Tokens that are kept -/

namespace Part

/-- The tokens that a part keeps. -/
def tokens : Part → List Token
  | .expression _ value | .operand value | .group value => value.tokens
  | .joined _ _ whole => whole.tokens
  | .statement value => value.tokens
  | .alternatives value => value.tokens
  | .statements values => Statement.tokensOfAll values

/-- The tokens that a part keeps from before it begins. -/
def earlier : Part → List Token
  | .joined _ left _ => left.tokens
  | _ => []

namespace From

variable {part : Part} {levels : Nat} {tokens rest : List Token}

/-- A part keeps all tokens that it takes, apart from those that only mark its shape. -/
theorem filter_isKept (derives : part.From levels tokens rest) :
    part.earlier ++ tokens.filter (·.kind.isKept) =
      part.tokens ++ rest.filter (·.kind.isKept) := by
  have drops : ∀ {token : Token} {kind : TokenKind}, token.kind = kind →
      kind ∈ TokenKind.frames ++ TokenKind.parens → token.kind.isKept = false := by
    intro token kind same member
    rw [← same] at member
    exact Bool.eq_false_iff.mpr fun kept => TokenKind.not_mem_of_isKept kept member
  induction derives with
  | literal kind =>
      simp [earlier, Part.tokens, Expression.tokens, TokenKind.isKept_of_isLiteral kind]
  | name kind _ =>
      simp [earlier, Part.tokens, Expression.tokens, TokenKind.isKept_of_isIdentifier kind]
  | call kind opens closes =>
      simp [earlier, Part.tokens, Expression.tokens, TokenKind.isKept_of_isIdentifier kind,
        drops opens (by decide), drops closes (by decide)]
  | unary kind _ ih =>
      have kept : TokenKind.logicalNot.isKept = true := by decide
      simpa [earlier, Part.tokens, Expression.tokens, kind, kept] using ih
  | grouped _ ih => exact ih
  | group opens _ closes ih =>
      simpa [earlier, Part.tokens, drops opens (by decide), drops closes (by decide)] using ih
  | last _ => rfl
  | further binds _ _ _ operandIH othersIH =>
      simp only [earlier, Part.tokens, Expression.tokens, List.nil_append] at operandIH othersIH ⊢
      have kept := TokenKind.isKept_of_powers binds
      rw [List.filter_cons_of_pos (by simpa using kept), operandIH, ← othersIH]
      simp
  | expression _ _ firstIH othersIH =>
      simp only [earlier, Part.tokens, List.nil_append] at firstIH othersIH ⊢
      rw [firstIH, othersIH]
  | assignment named sets _ closes ih =>
      have kept := TokenKind.isKept_of_isIdentifier (decide_eq_true named)
      simpa [earlier, Part.tokens, Statement.tokens, kept, drops sets (by decide),
        drops closes (by decide)] using ih
  | conditional begins _ _ _ askedIH firstIH othersIH =>
      simp only [earlier, Part.tokens, Statement.tokens, List.nil_append]
        at askedIH firstIH othersIH ⊢
      rw [List.filter_cons_of_neg (by simp [drops begins (by decide)]), askedIH, firstIH, othersIH]
      simp
  | loop begins _ _ askedIH bodyIH =>
      simp only [earlier, Part.tokens, Statement.tokens, List.nil_append] at askedIH bodyIH ⊢
      rw [List.filter_cons_of_neg (by simp [drops begins (by decide)]), askedIH, bodyIH]
      simp
  | block opens _ closes ih =>
      simpa [earlier, Part.tokens, Statement.tokens, drops opens (by decide),
        drops closes (by decide)] using ih
  | nothing _ => rfl
  | otherwise begins _ _ ih =>
      simpa [earlier, Part.tokens, Alternatives.tokens, drops begins (by decide)] using ih
  | elseIf begins asks _ _ _ askedIH innerIH othersIH =>
      simp only [earlier, Part.tokens, Alternatives.tokens, List.nil_append]
        at askedIH innerIH othersIH ⊢
      rw [List.filter_cons_of_neg (by simp [drops begins (by decide)]),
        List.filter_cons_of_neg (by simp [drops asks (by decide)]), askedIH, innerIH, othersIH]
      simp
  | nil => rfl
  | cons _ _ innerIH othersIH =>
      simp only [earlier, Part.tokens, Statement.tokensOfAll, List.nil_append] at innerIH othersIH ⊢
      rw [innerIH, othersIH]
      simp

/-- What a part keeps, in terms of the tokens that it takes. -/
theorem filter_used {used : List Token} (derives : part.From levels (used ++ rest) rest) :
    part.earlier ++ used.filter (·.kind.isKept) = part.tokens := by
  have kept := derives.filter_isKept
  rw [List.filter_append, ← List.append_assoc] at kept
  exact List.append_cancel_right kept

/-- A part takes no tokens but those that are kept and those that mark its shape. -/
theorem kinds (derives : part.From levels tokens rest)
    (others : ∀ token ∈ rest,
      token.kind.isKept = true ∨ token.kind ∈ TokenKind.frames ++ TokenKind.parens) :
    ∀ token ∈ tokens,
      token.kind.isKept = true ∨ token.kind ∈ TokenKind.frames ++ TokenKind.parens := by
  have marks : ∀ {token : Token} {kind : TokenKind}, token.kind = kind →
      kind ∈ TokenKind.frames ++ TokenKind.parens →
      token.kind.isKept = true ∨ token.kind ∈ TokenKind.frames ++ TokenKind.parens := by
    rintro token _ rfl member
    exact .inr member
  induction derives with
  | literal kind =>
      exact List.forall_mem_cons.mpr ⟨.inl (TokenKind.isKept_of_isLiteral kind), others⟩
  | name kind _ =>
      exact List.forall_mem_cons.mpr ⟨.inl (TokenKind.isKept_of_isIdentifier kind), others⟩
  | call kind opens closes =>
      refine List.forall_mem_cons.mpr ⟨.inl (TokenKind.isKept_of_isIdentifier kind), ?_⟩
      refine List.forall_mem_cons.mpr ⟨marks opens (by decide), ?_⟩
      exact List.forall_mem_cons.mpr ⟨marks closes (by decide), others⟩
  | unary kind _ ih =>
      refine List.forall_mem_cons.mpr ⟨.inl ?_, ih others⟩
      rw [kind]
      decide
  | grouped _ ih => exact ih others
  | group opens _ closes ih =>
      refine List.forall_mem_cons.mpr ⟨marks opens (by decide), ih ?_⟩
      exact List.forall_mem_cons.mpr ⟨marks closes (by decide), others⟩
  | last _ => exact others
  | further binds _ _ _ operandIH othersIH =>
      exact List.forall_mem_cons.mpr
        ⟨.inl (TokenKind.isKept_of_powers binds), operandIH (othersIH others)⟩
  | expression _ _ firstIH othersIH => exact firstIH (othersIH others)
  | assignment named sets _ closes ih =>
      have kept := TokenKind.isKept_of_isIdentifier (decide_eq_true named)
      refine List.forall_mem_cons.mpr ⟨.inl kept, ?_⟩
      refine List.forall_mem_cons.mpr ⟨marks sets (by decide), ih ?_⟩
      exact List.forall_mem_cons.mpr ⟨marks closes (by decide), others⟩
  | conditional begins _ _ _ askedIH firstIH othersIH =>
      exact List.forall_mem_cons.mpr
        ⟨marks begins (by decide), askedIH (firstIH (othersIH others))⟩
  | loop begins _ _ askedIH bodyIH =>
      exact List.forall_mem_cons.mpr ⟨marks begins (by decide), askedIH (bodyIH others)⟩
  | block opens _ closes ih =>
      refine List.forall_mem_cons.mpr ⟨marks opens (by decide), ih ?_⟩
      exact List.forall_mem_cons.mpr ⟨marks closes (by decide), others⟩
  | nothing _ => exact others
  | otherwise begins _ _ ih =>
      exact List.forall_mem_cons.mpr ⟨marks begins (by decide), ih others⟩
  | elseIf begins asks _ _ _ askedIH innerIH othersIH =>
      refine List.forall_mem_cons.mpr ⟨marks begins (by decide), ?_⟩
      exact List.forall_mem_cons.mpr
        ⟨marks asks (by decide), askedIH (innerIH (othersIH others))⟩
  | nil => exact others
  | cons _ _ innerIH othersIH => exact innerIH (othersIH others)

end From

end Part

/-! ## Tokens that mark the shape -/

/-- The tokens that the alternatives of a conditional are recognised by, not counting those of the
statements in them. -/
def Alternatives.frame : Alternatives → List TokenKind
  | .nothing => []
  | .otherwise _ => [.elseWord]
  | .elseIf _ _ _ others => .elseWord :: .ifWord :: others.frame

/-- The tokens that a statement is recognised by, not counting those of the statements in it. -/
def Statement.frame : Statement → List TokenKind
  | .block .. => [.openCurly, .closeCurly]
  | .assignment .. => [.assign, .semicolon]
  | .conditional _ _ alternatives _ => .ifWord :: alternatives.frame
  | .loop .. => [.whileWord]

/-- The tokens that mark the shape of a part. -/
def Part.frames : Part → List TokenKind
  | .alternatives value => value.frame ++ value.nodes.flatMap Statement.frame
  | part => part.nodes.flatMap Statement.frame

theorem Alternatives.frame_subset_words (alternatives : Alternatives) :
    alternatives.frame ⊆ [.ifWord, .elseWord] := by
  fun_induction Alternatives.frame alternatives with
  | case1 => exact List.nil_subset _
  | case2 => decide
  | case3 _ _ _ others ih =>
      exact List.cons_subset.mpr ⟨by decide, List.cons_subset.mpr ⟨by decide, ih⟩⟩

theorem Alternatives.frame_subset (alternatives : Alternatives) :
    alternatives.frame ⊆ TokenKind.frames :=
  List.Subset.trans alternatives.frame_subset_words (by decide)

theorem Statement.frame_subset (statement : Statement) : statement.frame ⊆ TokenKind.frames := by
  cases statement with
  | conditional _ _ alternatives _ =>
      exact List.cons_subset.mpr ⟨by decide, alternatives.frame_subset⟩
  | block | assignment | loop => simp [frame, TokenKind.frames]

/-- No parenthesis marks the shape of a part. -/
theorem Part.frames_subset (part : Part) : part.frames ⊆ TokenKind.frames := by
  have every : ∀ nodes : List Statement, nodes.flatMap Statement.frame ⊆ TokenKind.frames := by
    intro nodes kind member
    rcases List.mem_flatMap.mp member with ⟨node, _, own⟩
    exact node.frame_subset own
  cases part with
  | alternatives value =>
      exact List.append_subset.mpr ⟨value.frame_subset, every _⟩
  | expression | operand | group | joined | statement | statements => exact every _

/-- The weights of the kinds, taken together. -/
def weigh (weight : TokenKind → Int) : List TokenKind → Int
  | [] => 0
  | kind :: kinds => weight kind + weigh weight kinds

@[simp] theorem weigh_append (weight : TokenKind → Int) (kinds others : List TokenKind) :
    weigh weight (kinds ++ others) = weigh weight kinds + weigh weight others := by
  induction kinds with
  | nil => simp [weigh]
  | cons kind kinds ih =>
      simp only [List.cons_append, weigh, ih]
      omega

/-- Weighing tells how often a kind occurs. -/
theorem weigh_count (kind : TokenKind) (kinds : List TokenKind) :
    weigh (fun other => if other = kind then 1 else 0) kinds = kinds.count kind := by
  induction kinds with
  | nil => rfl
  | cons other kinds ih =>
      simp only [weigh, ih, List.count_cons, beq_iff_eq]
      split <;> omega

/-- Weighing tells how far two kinds are from being in balance. -/
theorem weigh_balance {left right : TokenKind} (different : left ≠ right)
    (kinds : List TokenKind) :
    weigh (fun other => if other = left then 1 else if other = right then -1 else 0) kinds =
      kinds.count left - kinds.count right := by
  induction kinds with
  | nil => rfl
  | cons other kinds ih =>
      simp only [weigh, ih, List.count_cons, beq_iff_eq]
      split
      next same =>
        subst same
        rw [if_neg different]
        omega
      next => split <;> omega

namespace Part.From

variable {part : Part} {levels : Nat} {tokens rest : List Token} {weight : TokenKind → Int}

/-- By any weights that what is kept does not count in, and that a pair of parentheses does not
count in, a part takes as much as the tokens weigh that mark its shape. -/
theorem weigh_eq (derives : part.From levels tokens rest)
    (kept : ∀ kind : TokenKind, kind.isKept = true → weight kind = 0)
    (pairs : weight .openParen + weight .closeParen = 0) :
    weigh weight (tokens.map Token.kind) =
      weigh weight part.frames + weigh weight (rest.map Token.kind) := by
  induction derives with
  | literal kind =>
      simp [frames, nodes, weigh, kept _ (TokenKind.isKept_of_isLiteral kind)]
  | name kind _ =>
      simp [frames, nodes, weigh, kept _ (TokenKind.isKept_of_isIdentifier kind)]
  | call kind opens closes =>
      simp only [List.map_cons, frames, nodes, List.flatMap_nil, weigh, opens, closes,
        kept _ (TokenKind.isKept_of_isIdentifier kind)]
      omega
  | unary kind _ ih =>
      have negation : weight .logicalNot = 0 := kept _ (by decide)
      simpa [frames, nodes, weigh, kind, negation] using ih
  | grouped _ ih => exact ih
  | group opens _ closes ih =>
      simp only [List.map_cons, frames, nodes, List.flatMap_nil, weigh, opens, closes] at ih ⊢
      omega
  | last _ => simp [frames, nodes, weigh]
  | further binds _ _ _ operandIH othersIH =>
      have operator := kept _ (TokenKind.isKept_of_powers binds)
      simp only [List.map_cons, frames, nodes, List.flatMap_nil, weigh, operator]
        at operandIH othersIH ⊢
      omega
  | expression _ _ firstIH othersIH =>
      simp only [frames, nodes, List.flatMap_nil, weigh] at firstIH othersIH ⊢
      omega
  | assignment named sets _ closes ih =>
      have target := kept _ (TokenKind.isKept_of_isIdentifier (decide_eq_true named))
      simp only [List.map_cons, frames, nodes, Statement.nodes, Statement.frame, List.flatMap_cons,
        List.flatMap_nil, weigh_append, weigh, target, sets, closes] at ih ⊢
      omega
  | conditional begins _ _ _ askedIH firstIH othersIH =>
      simp only [List.map_cons, frames, nodes, Statement.nodes, Statement.frame, List.flatMap_cons,
        List.flatMap_nil, List.flatMap_append, weigh_append, weigh, begins]
        at askedIH firstIH othersIH ⊢
      omega
  | loop begins _ _ askedIH bodyIH =>
      simp only [List.map_cons, frames, nodes, Statement.nodes, Statement.frame, List.flatMap_cons,
        List.flatMap_nil, weigh_append, weigh, begins] at askedIH bodyIH ⊢
      omega
  | block opens _ closes ih =>
      simp only [List.map_cons, frames, nodes, Statement.nodes, Statement.frame, List.flatMap_cons,
        weigh_append, weigh, opens, closes] at ih ⊢
      omega
  | nothing _ => simp [frames, Alternatives.frame, Alternatives.nodes, weigh]
  | otherwise begins _ _ ih =>
      simp only [List.map_cons, frames, nodes, Alternatives.nodes, Alternatives.frame,
        weigh_append, weigh, begins] at ih ⊢
      omega
  | elseIf begins asks _ _ _ askedIH innerIH othersIH =>
      simp only [List.map_cons, frames, nodes, Alternatives.nodes, Alternatives.frame,
        List.flatMap_nil, List.flatMap_append, weigh_append, weigh, begins, asks]
        at askedIH innerIH othersIH ⊢
      omega
  | nil => simp [frames, nodes, Statement.nodesOfAll, weigh]
  | cons _ _ innerIH othersIH =>
      simp only [frames, nodes, Statement.nodesOfAll, List.flatMap_append, weigh_append]
        at innerIH othersIH ⊢
      omega

/-- Of each kind that marks shapes, a part takes just as many tokens as its statements need. -/
theorem count_frames (derives : part.From levels tokens rest) {kind : TokenKind}
    (marks : kind ∈ TokenKind.frames) :
    (tokens.map Token.kind).count kind =
      part.frames.count kind + (rest.map Token.kind).count kind := by
  have kept : ∀ other : TokenKind, other.isKept = true →
      (if other = kind then 1 else 0 : Int) = 0 := by
    rintro other kept
    refine if_neg ?_
    rintro rfl
    exact TokenKind.not_mem_of_isKept kept (List.mem_append_left _ marks)
  have pairs : ((if .openParen = kind then 1 else 0) + if .closeParen = kind then 1 else 0 : Int) =
      0 := by
    clear kept
    revert kind
    decide
  have weighed := derives.weigh_eq kept pairs
  simp only [weigh_count] at weighed
  omega

/-- A part closes the parentheses that it opens. -/
theorem count_parens (derives : part.From levels tokens rest) :
    (tokens.map Token.kind).count .openParen + (rest.map Token.kind).count .closeParen =
      (tokens.map Token.kind).count .closeParen + (rest.map Token.kind).count .openParen := by
  have different : TokenKind.openParen ≠ .closeParen := by decide
  have kept : ∀ other : TokenKind, other.isKept = true →
      (if other = .openParen then 1 else if other = .closeParen then -1 else 0 : Int) = 0 := by
    intro other kept
    have outside := TokenKind.not_mem_of_isKept kept
    rw [if_neg, if_neg]
    · rintro rfl
      exact outside (by decide)
    · rintro rfl
      exact outside (by decide)
  have none : ∀ kind ∈ TokenKind.parens, part.frames.count kind = 0 := by
    intro kind paren
    have table : ∀ kind ∈ TokenKind.parens, kind ∉ TokenKind.frames := by decide
    exact List.count_eq_zero_of_not_mem fun member => table kind paren (part.frames_subset member)
  have weighed := derives.weigh_eq kept (by decide)
  simp only [weigh_balance different, none .openParen (by decide), none .closeParen (by decide)]
    at weighed
  omega

end Part.From

/-! ## Counting statements -/

namespace Alternatives

theorem count_frame_ifWord (alternatives : Alternatives) :
    alternatives.frame.count .ifWord = alternatives.clauses.length := by
  fun_induction frame alternatives with
  | case1 => rfl
  | case2 => rfl
  | case3 _ _ _ others ih => simp [clauses, ih]

theorem count_frame_elseWord (alternatives : Alternatives) :
    alternatives.frame.count .elseWord =
      alternatives.clauses.length + alternatives.last?.toList.length := by
  fun_induction frame alternatives with
  | case1 => rfl
  | case2 => rfl
  | case3 _ _ _ others ih =>
      simp [clauses, last?, ih]
      omega

theorem count_frame_other (alternatives : Alternatives) {kind : TokenKind}
    (neither : kind ∉ [.ifWord, .elseWord]) : alternatives.frame.count kind = 0 :=
  List.count_eq_zero_of_not_mem fun member => neither (alternatives.frame_subset_words member)

end Alternatives

namespace Statement

/-- The statements read by a rule are as many as the tokens that only they are recognised by. -/
theorem count_frame_of_rule {kind : TokenKind} {rule : StatementRule}
    (one : ∀ statement : Statement,
      statement.frame.count kind = if statement.rule = rule then 1 else 0)
    (nodes : List Statement) :
    (nodes.flatMap frame).count kind = (nodes.map Statement.rule).count rule := by
  induction nodes with
  | nil => rfl
  | cons first others ih =>
      simp only [List.flatMap_cons, List.count_append, List.map_cons, List.count_cons, one, ih,
        beq_iff_eq]
      omega

theorem count_frame_ifWord (nodes : List Statement) :
    (nodes.flatMap frame).count .ifWord =
      (nodes.map Statement.rule).count .conditional + (nodes.flatMap clauses).length := by
  induction nodes with
  | nil => rfl
  | cons first others ih =>
      have own : first.frame.count .ifWord =
          (if first.rule = .conditional then 1 else 0) + first.clauses.length := by
        cases first <;>
          simp [frame, clauses, rule, Alternatives.count_frame_ifWord, Nat.add_comm]
      simp only [List.flatMap_cons, List.count_append, List.length_append, List.map_cons,
        List.count_cons, own, ih, beq_iff_eq]
      omega

theorem count_frame_elseWord (nodes : List Statement) :
    (nodes.flatMap frame).count .elseWord =
      (nodes.flatMap clauses).length + (nodes.filterMap last?).length := by
  induction nodes with
  | nil => rfl
  | cons first others ih =>
      have own : first.frame.count .elseWord =
          first.clauses.length + first.last?.toList.length := by
        cases first <;> simp [frame, clauses, last?, Alternatives.count_frame_elseWord]
      have behind : ((first :: others).filterMap last?).length =
          first.last?.toList.length + (others.filterMap last?).length := by
        cases present : first.last? <;> simp [present, Nat.add_comm]
      simp only [List.flatMap_cons, List.count_append, List.length_append, own, ih, behind]
      omega

end Statement

/-- A program is built of the tokens: it keeps those that stand for something by themselves, in
their order, and there are no others than its statements and parentheses need. -/
structure Block.BuiltOf (root : Block) (tokens : List Token) : Prop where
  kept : root.tokens = tokens.filter (·.kind.isKept)
  kinds : ∀ token ∈ tokens,
    token.kind.isKept = true ∨ token.kind ∈ TokenKind.frames ++ TokenKind.parens
  ifs : (tokens.map Token.kind).count .ifWord =
    (root.nodes.map Statement.rule).count .conditional +
      (root.nodes.flatMap Statement.clauses).length
  elses : (tokens.map Token.kind).count .elseWord =
    (root.nodes.flatMap Statement.clauses).length + (root.nodes.filterMap Statement.last?).length
  whiles : (tokens.map Token.kind).count .whileWord = (root.nodes.map Statement.rule).count .loop
  assigns : (tokens.map Token.kind).count .assign =
    (root.nodes.map Statement.rule).count .assignment
  semicolons : (tokens.map Token.kind).count .semicolon =
    (root.nodes.map Statement.rule).count .assignment
  openings : (tokens.map Token.kind).count .openCurly =
    (root.nodes.map Statement.rule).count .block
  closings : (tokens.map Token.kind).count .closeCurly =
    (root.nodes.map Statement.rule).count .block
  parens : (tokens.map Token.kind).count .openParen = (tokens.map Token.kind).count .closeParen

/-- No token is lost, doubled or moved on the way from a source to its tree. -/
theorem parse_builtOf {source : String} {file : Option String} {root : Block}
    (read : parse source file = .ok root) :
    ∃ tokens, tokenize source file = .ok tokens ∧ root.BuiltOf tokens := by
  rcases parse_ok_iff.mp read with ⟨tokens, lexed, derives, _⟩
  refine ⟨tokens, lexed, ?_⟩
  have counted : ∀ kind ∈ TokenKind.frames, (tokens.map Token.kind).count kind =
      (root.nodes.flatMap Statement.frame).count kind := by
    intro kind marks
    exact derives.count_frames marks
  -- Of every kind but two, only one rule takes a token, and it takes one.
  have byRule : ∀ (kind : TokenKind) (rule : StatementRule), kind ∈ TokenKind.frames →
      (∀ statement : Statement,
        statement.frame.count kind = if statement.rule = rule then 1 else 0) →
      (tokens.map Token.kind).count kind = (root.nodes.map Statement.rule).count rule := by
    intro kind rule marks one
    exact (counted kind marks).trans (Statement.count_frame_of_rule one _)
  constructor
  · simpa [Part.earlier, Part.tokens, Block.tokens] using derives.filter_isKept.symm
  · exact derives.kinds (by simp)
  · exact (counted .ifWord (by decide)).trans (Statement.count_frame_ifWord _)
  · exact (counted .elseWord (by decide)).trans (Statement.count_frame_elseWord _)
  · refine byRule .whileWord .loop (by decide) fun statement => ?_
    cases statement <;> simp [Statement.frame, Statement.rule, Alternatives.count_frame_other]
  · refine byRule .assign .assignment (by decide) fun statement => ?_
    cases statement <;> simp [Statement.frame, Statement.rule, Alternatives.count_frame_other]
  · refine byRule .semicolon .assignment (by decide) fun statement => ?_
    cases statement <;> simp [Statement.frame, Statement.rule, Alternatives.count_frame_other]
  · refine byRule .openCurly .block (by decide) fun statement => ?_
    cases statement <;> simp [Statement.frame, Statement.rule, Alternatives.count_frame_other]
  · refine byRule .closeCurly .block (by decide) fun statement => ?_
    cases statement <;> simp [Statement.frame, Statement.rule, Alternatives.count_frame_other]
  · exact derives.count_parens

/-- A program with every kind of statement in it, with groups and a call. -/
theorem parse_builtOf_everything :
    ∃ root, parse "if (!$a) { $x = (1 + 2) * $y(); } else if ($b) while ($c) $z = 'c'; else { }"
        none = .ok root ∧
      ∃ tokens, tokenize
          "if (!$a) { $x = (1 + 2) * $y(); } else if ($b) while ($c) $z = 'c'; else { }"
          none = .ok tokens ∧ root.BuiltOf tokens := by
  have reads :
      (parse "if (!$a) { $x = (1 + 2) * $y(); } else if ($b) while ($c) $z = 'c'; else { }"
        none).isOk = true := by
    decide +kernel
  cases read :
      parse "if (!$a) { $x = (1 + 2) * $y(); } else if ($b) while ($c) $z = 'c'; else { }" none with
  | error halt =>
      rw [read] at reads
      cases reads
  | ok root => exact ⟨root, rfl, parse_builtOf read⟩

end Scriptlet
