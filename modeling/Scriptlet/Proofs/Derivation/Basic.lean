import Scriptlet.Grammar
import Scriptlet.Tree.Statement

/-!
# Derivations

Which trees come from which tokens.  `part.From levels tokens rest` says that the part of a program
is read off the front of `tokens`, with `rest` left behind it and with no more than `levels`
productions open in it at one time.  It is a relation and not a function: what follows a part
appears in it only where a part ends because of what follows.

Three facts carry everything that is said about trees later on.  A part takes tokens off the front
and nothing else matters to it but what kind of token comes next (`From.replace`), more levels do no
harm (`From.mono`), and every statement inside a part has a derivation of its own
(`From.of_mem_nodes`).
-/

namespace Scriptlet

/-- The next token, if there is one, is not of such a kind. -/
def NextNot (kinds : TokenKind → Prop) (tokens : List Token) : Prop :=
  ∀ token ∈ tokens.head?, ¬ kinds token.kind

/-- The second list begins with no kind of token that the first does not begin with. -/
def BeginsLike (tokens others : List Token) : Prop :=
  ∀ other ∈ others.head?, ∃ token ∈ tokens.head?, token.kind = other.kind

theorem NextNot.of_beginsLike {kinds : TokenKind → Prop} {tokens others : List Token}
    (next : NextNot kinds tokens) (alike : BeginsLike tokens others) : NextNot kinds others := by
  intro other member joins
  rcases alike other member with ⟨token, seen, same⟩
  rw [← same] at joins
  exact next token seen joins

namespace BeginsLike

/-- Nothing begins with nothing. -/
theorem nil (tokens : List Token) : BeginsLike tokens [] := by
  intro other member
  cases member

theorem cons (token : Token) (tokens others : List Token) :
    BeginsLike (token :: tokens) (token :: others) := by
  intro other member
  cases member
  exact ⟨token, rfl, rfl⟩

theorem append {tokens others : List Token} (alike : BeginsLike tokens others)
    (used : List Token) : BeginsLike (used ++ tokens) (used ++ others) := by
  cases used with
  | nil => exact alike
  | cons token used => exact cons token _ _

end BeginsLike

/-- Tokens of the kind join operands more strongly than `power` does. -/
def Grammar.Joins (power : Power) (kind : TokenKind) : Prop :=
  ∃ next, standard.powers kind = some next ∧ ¬ next ≤ power

/-- What is read off the front of a list of tokens. -/
inductive Part where
  | expression (power : Power) (value : Expression)
  | operand (value : Expression)
  /-- An expression in parentheses. -/
  | group (value : Expression)
  /-- Operators and operands that make `whole` of the operand on their left. -/
  | joined (power : Power) (left whole : Expression)
  | statement (value : Statement)
  | alternatives (value : Alternatives)
  | statements (values : List Statement)

namespace Part

/-- A part is read from the front of `tokens`, with at most `levels` productions open in it, and
leaves `rest`. -/
inductive From : Part → (levels : Nat) → (tokens rest : List Token) → Prop where
  | literal {levels : Nat} {token : Token} {rest : List Token}
      (kind : token.kind.isLiteral = true) :
      From (.operand (.atom token)) levels (token :: rest) rest
  | name {levels : Nat} {token : Token} {rest : List Token}
      (kind : token.kind.isIdentifier = true) (alone : NextNot (· = .openParen) rest) :
      From (.operand (.atom token)) levels (token :: rest) rest
  | call {levels : Nat} {token opening closing : Token} {rest : List Token}
      (kind : token.kind.isIdentifier = true) (opens : opening.kind = .openParen)
      (closes : closing.kind = .closeParen) :
      From (.operand (.call token)) levels (token :: opening :: closing :: rest) rest
  | unary {levels : Nat} {token : Token} {operand : Expression} {tokens rest : List Token}
      (kind : token.kind = .logicalNot)
      (inner : From (.expression .unary operand) levels tokens rest) :
      From (.operand (.unary token operand)) levels (token :: tokens) rest
  | grouped {levels : Nat} {value : Expression} {tokens rest : List Token}
      (inner : From (.group value) levels tokens rest) :
      From (.operand value) levels tokens rest
  | group {levels : Nat} {opening closing : Token} {value : Expression} {tokens rest : List Token}
      (opens : opening.kind = .openParen)
      (inner : From (.expression .lowest value) levels tokens (closing :: rest))
      (closes : closing.kind = .closeParen) :
      From (.group value) levels (opening :: tokens) rest
  | last {levels : Nat} {power : Power} {left : Expression} {rest : List Token}
      (ends : NextNot (Grammar.Joins power) rest) :
      From (.joined power left left) levels rest rest
  | further {levels : Nat} {power next : Power} {operator : Token} {left right whole : Expression}
      {tokens middle rest : List Token}
      (binds : Grammar.standard.powers operator.kind = some next) (stronger : ¬ next ≤ power)
      (operand : From (.expression next right) levels tokens middle)
      (others : From (.joined power (.binary operator left right) whole) levels middle rest) :
      From (.joined power left whole) levels (operator :: tokens) rest
  | expression {levels : Nat} {power : Power} {left whole : Expression}
      {tokens middle rest : List Token}
      (first : From (.operand left) levels tokens middle)
      (others : From (.joined power left whole) levels middle rest) :
      From (.expression power whole) (levels + 1) tokens rest
  | assignment {levels : Nat} {target equals closing : Token} {value : Expression}
      {tokens rest : List Token}
      (named : target.kind ∈ TokenKind.identifiers) (sets : equals.kind = .assign)
      (given : From (.expression .lowest value) levels tokens (closing :: rest))
      (closes : closing.kind = .semicolon) :
      From (.statement (.assignment target value ⟨target.span.start, closing.span.stop⟩))
        (levels + 1) (target :: equals :: tokens) rest
  | conditional {levels : Nat} {start : Token} {condition : Expression} {branch : Statement}
      {alternatives : Alternatives} {tokens middle later rest : List Token}
      (begins : start.kind = .ifWord)
      (asked : From (.group condition) levels tokens middle)
      (first : From (.statement branch) levels middle later)
      (others : From (.alternatives alternatives) levels later rest) :
      From (.statement (.conditional condition branch alternatives
        ⟨start.span.start, alternatives.stop?.getD branch.span.stop⟩))
        (levels + 1) (start :: tokens) rest
  | loop {levels : Nat} {start : Token} {condition : Expression} {body : Statement}
      {tokens middle rest : List Token}
      (begins : start.kind = .whileWord)
      (asked : From (.group condition) levels tokens middle)
      (repeats : From (.statement body) levels middle rest) :
      From (.statement (.loop condition body ⟨start.span.start, body.span.stop⟩))
        (levels + 1) (start :: tokens) rest
  | block {levels : Nat} {opening closing : Token} {body : List Statement}
      {tokens rest : List Token}
      (opens : opening.kind = .openCurly)
      (inner : From (.statements body) levels tokens (closing :: rest))
      (closes : closing.kind = .closeCurly) :
      From (.statement (.block body ⟨opening.span.start, closing.span.stop⟩))
        (levels + 1) (opening :: tokens) rest
  | nothing {levels : Nat} {rest : List Token} (ends : NextNot (· = .elseWord) rest) :
      From (.alternatives .nothing) levels rest rest
  | otherwise {levels : Nat} {start : Token} {branch : Statement} {tokens rest : List Token}
      (begins : start.kind = .elseWord) (bare : NextNot (· = .ifWord) tokens)
      (inner : From (.statement branch) levels tokens rest) :
      From (.alternatives (.otherwise branch)) levels (start :: tokens) rest
  | elseIf {levels : Nat} {start second : Token} {condition : Expression} {branch : Statement}
      {others : Alternatives} {tokens middle later rest : List Token}
      (begins : start.kind = .elseWord) (asks : second.kind = .ifWord)
      (asked : From (.group condition) levels tokens middle)
      (inner : From (.statement branch) levels middle later)
      (further : From (.alternatives others) levels later rest) :
      From (.alternatives (.elseIf condition branch ⟨start.span.start, branch.span.stop⟩ others))
        levels (start :: second :: tokens) rest
  | nil {levels : Nat} {rest : List Token} : From (.statements []) levels rest rest
  | cons {levels : Nat} {first : Statement} {others : List Statement}
      {tokens middle rest : List Token}
      (inner : From (.statement first) levels tokens middle)
      (further : From (.statements others) levels middle rest) :
      From (.statements (first :: others)) levels tokens rest

namespace From

variable {part : Part} {levels : Nat} {tokens rest : List Token}

/-- A part is the tokens that it takes, in front of whatever the next token allows. -/
theorem replace (derives : part.From levels tokens rest) :
    ∃ used, tokens = used ++ rest ∧
      ∀ others, BeginsLike rest others → part.From levels (used ++ others) others := by
  induction derives with
  | @literal levels token rest kind =>
      exact ⟨[token], rfl, fun others _ => .literal kind⟩
  | @name levels token rest kind alone =>
      exact ⟨[token], rfl, fun others alike => .name kind (alone.of_beginsLike alike)⟩
  | @call levels token opening closing rest kind opens closes =>
      exact ⟨[token, opening, closing], rfl, fun others _ => .call kind opens closes⟩
  | @unary levels token operand tokens rest kind _ ih =>
      rcases ih with ⟨used, rfl, inner⟩
      exact ⟨token :: used, rfl, fun others alike => .unary kind (inner others alike)⟩
  | grouped _ ih =>
      rcases ih with ⟨used, rfl, inner⟩
      exact ⟨used, rfl, fun others alike => .grouped (inner others alike)⟩
  | @group levels opening closing value tokens rest opens _ closes ih =>
      rcases ih with ⟨used, rfl, inner⟩
      refine ⟨opening :: used ++ [closing], by simp, fun others alike => ?_⟩
      have moved := inner (closing :: others) (.cons closing rest others)
      simpa using group opens moved closes
  | last ends =>
      exact ⟨[], rfl, fun others alike => .last (ends.of_beginsLike alike)⟩
  | @further levels power next operator left right whole tokens middle rest binds stronger _ _
      operandIH othersIH =>
      rcases operandIH with ⟨used, rfl, operand⟩
      rcases othersIH with ⟨behind, rfl, joined⟩
      refine ⟨operator :: used ++ behind, by simp, fun others alike => ?_⟩
      have moved := operand (behind ++ others) (alike.append behind)
      simpa using further binds stronger moved (joined others alike)
  | expression _ _ firstIH othersIH =>
      rcases firstIH with ⟨used, rfl, first⟩
      rcases othersIH with ⟨behind, rfl, joined⟩
      refine ⟨used ++ behind, by simp, fun others alike => ?_⟩
      have moved := first (behind ++ others) (alike.append behind)
      simpa using expression moved (joined others alike)
  | @assignment levels target equals closing value tokens rest named sets _ closes ih =>
      rcases ih with ⟨used, rfl, given⟩
      refine ⟨target :: equals :: used ++ [closing], by simp, fun others _ => ?_⟩
      have moved := given (closing :: others) (.cons closing rest others)
      simpa using assignment named sets moved closes
  | @conditional levels start condition branch alternatives tokens middle later rest begins _ _ _
      askedIH firstIH othersIH =>
      rcases askedIH with ⟨used, rfl, asked⟩
      rcases firstIH with ⟨inside, rfl, first⟩
      rcases othersIH with ⟨behind, rfl, further⟩
      refine ⟨start :: used ++ inside ++ behind, by simp, fun others alike => ?_⟩
      have movedFirst := first (behind ++ others) (alike.append behind)
      have movedAsked := asked (inside ++ (behind ++ others))
        ((alike.append behind).append inside)
      simpa using conditional begins movedAsked movedFirst (further others alike)
  | @loop levels start condition body tokens middle rest begins _ _ askedIH bodyIH =>
      rcases askedIH with ⟨used, rfl, asked⟩
      rcases bodyIH with ⟨inside, rfl, repeats⟩
      refine ⟨start :: used ++ inside, by simp, fun others alike => ?_⟩
      have moved := asked (inside ++ others) (alike.append inside)
      simpa using loop begins moved (repeats others alike)
  | @block levels opening closing body tokens rest opens _ closes ih =>
      rcases ih with ⟨used, rfl, inner⟩
      refine ⟨opening :: used ++ [closing], by simp, fun others _ => ?_⟩
      have moved := inner (closing :: others) (.cons closing rest others)
      simpa using block opens moved closes
  | nothing ends =>
      exact ⟨[], rfl, fun others alike => .nothing (ends.of_beginsLike alike)⟩
  | @otherwise levels start branch tokens rest begins bare _ ih =>
      rcases ih with ⟨used, rfl, inner⟩
      refine ⟨start :: used, rfl, fun others alike => ?_⟩
      exact .otherwise begins (bare.of_beginsLike (alike.append used)) (inner others alike)
  | @elseIf levels start second condition branch alternatives tokens middle later rest begins asks
      _ _ _ askedIH innerIH othersIH =>
      rcases askedIH with ⟨used, rfl, asked⟩
      rcases innerIH with ⟨inside, rfl, inner⟩
      rcases othersIH with ⟨behind, rfl, further⟩
      refine ⟨start :: second :: used ++ inside ++ behind, by simp, fun others alike => ?_⟩
      have movedInner := inner (behind ++ others) (alike.append behind)
      have movedAsked := asked (inside ++ (behind ++ others))
        ((alike.append behind).append inside)
      simpa using elseIf begins asks movedAsked movedInner (further others alike)
  | nil => exact ⟨[], rfl, fun others _ => .nil⟩
  | cons _ _ innerIH othersIH =>
      rcases innerIH with ⟨used, rfl, inner⟩
      rcases othersIH with ⟨behind, rfl, further⟩
      refine ⟨used ++ behind, by simp, fun others alike => ?_⟩
      have moved := inner (behind ++ others) (alike.append behind)
      simpa using cons moved (further others alike)

/-- More levels do no harm. -/
theorem mono (derives : part.From levels tokens rest) {more : Nat} (enough : levels ≤ more) :
    part.From more tokens rest := by
  induction derives generalizing more with
  | literal kind => exact .literal kind
  | name kind alone => exact .name kind alone
  | call kind opens closes => exact .call kind opens closes
  | unary kind _ ih => exact .unary kind (ih enough)
  | grouped _ ih => exact .grouped (ih enough)
  | group opens _ closes ih => exact .group opens (ih enough) closes
  | last ends => exact .last ends
  | further binds stronger _ _ operandIH othersIH =>
      exact .further binds stronger (operandIH enough) (othersIH enough)
  | expression _ _ firstIH othersIH =>
      cases more with
      | zero => cases enough
      | succ more =>
          have inside := Nat.le_of_succ_le_succ enough
          exact .expression (firstIH inside) (othersIH inside)
  | assignment named sets _ closes ih =>
      cases more with
      | zero => cases enough
      | succ more => exact .assignment named sets (ih (Nat.le_of_succ_le_succ enough)) closes
  | conditional begins _ _ _ askedIH firstIH othersIH =>
      cases more with
      | zero => cases enough
      | succ more =>
          have inside := Nat.le_of_succ_le_succ enough
          exact .conditional begins (askedIH inside) (firstIH inside) (othersIH inside)
  | loop begins _ _ askedIH bodyIH =>
      cases more with
      | zero => cases enough
      | succ more =>
          have inside := Nat.le_of_succ_le_succ enough
          exact .loop begins (askedIH inside) (bodyIH inside)
  | block opens _ closes ih =>
      cases more with
      | zero => cases enough
      | succ more => exact .block opens (ih (Nat.le_of_succ_le_succ enough)) closes
  | nothing ends => exact .nothing ends
  | otherwise begins bare _ ih => exact .otherwise begins bare (ih enough)
  | elseIf begins asks _ _ _ askedIH innerIH othersIH =>
      exact .elseIf begins asks (askedIH enough) (innerIH enough) (othersIH enough)
  | nil => exact .nil
  | cons _ _ innerIH othersIH => exact .cons (innerIH enough) (othersIH enough)

end From

end Part

end Scriptlet
