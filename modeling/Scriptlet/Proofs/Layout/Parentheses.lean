import Scriptlet.Proofs.Layout.Erasure
import Scriptlet.Proofs.Lexing.Spacing

/-!
# Expressions in full parentheses

An expression can be written out with parentheses around everything that has an operator
(`Expression.parenthesised`).  Read again, the text gives the expression back, however operators are
nested in it and whatever their powers are (`expression_parenthesised`).

Cutting the text into tokens and reading the tokens are kept apart by what the tokens say
(`Expression.written`).  No token is kept from its neighbour by more than a separator, so what is
cut has to be said in front of the text that follows (`Cuts`).  When the tokens are read, every
group is an operand, and an operand does not depend on what follows it, unless a parenthesis opens
there.
-/

namespace Scriptlet

/-! ## Writing expressions out -/

/-- The operators between two operands, as they are written. -/
def binaryOperators : List (TokenKind × String) :=
  [(.logicalOr, "||"), (.logicalAnd, "&&"), (.plus, "+"), (.dash, "-"), (.star, "*"),
    (.slash, "/"), (.percent, "%")]

/-- The token says what some token says that is cut out of a text. -/
def Token.Lexable (token : Token) : Prop :=
  ∃ (cursor after : Cursor) (found : Token),
    cursor.nextToken = (.ok found, after) ∧ found.content = token.content

theorem Token.Lexable.spells {token : Token} (lexable : token.Lexable) : token.Spells := by
  obtain ⟨cursor, after, found, read, same⟩ := lexable
  have spells := Cursor.nextToken_spells read
  obtain ⟨kind, value⟩ := Prod.mk.inj same
  rwa [Token.Spells, Token.sourceText, kind, value] at spells

namespace Expression

/-- The expression in parentheses, and everything in it. -/
def parenthesised : Expression → String
  | .binary operator left right =>
      "(" ++ left.parenthesised ++ " " ++ operator.value ++ " " ++ right.parenthesised ++ ")"
  | .unary operator operand => "(" ++ operator.value ++ operand.parenthesised ++ ")"
  | .atom token => token.sourceText
  | .call callee => callee.value ++ "()"

/-- The expression can be written out: its operators are operators of the language, and its
literals and variables can be cut out of a text. -/
def Writable : Expression → Prop
  | .binary operator left right =>
      operator.content ∈ binaryOperators ∧ left.Writable ∧ right.Writable
  | .unary operator operand => operator.content = (.logicalNot, "!") ∧ operand.Writable
  | .atom token => (token.kind.isLiteral ∨ token.kind.isIdentifier) ∧ token.Lexable
  | .call callee => callee.kind.isIdentifier ∧ callee.Lexable

/-- What the tokens say that the expression is written with. -/
def written : Expression → List (TokenKind × String)
  | .binary operator left right =>
      (.openParen, "(") ::
        (left.written ++ operator.content :: (right.written ++ [(.closeParen, ")")]))
  | .unary operator operand =>
      (.openParen, "(") :: operator.content :: (operand.written ++ [(.closeParen, ")")])
  | .atom token => [token.content]
  | .call callee => [callee.content, (.openParen, "("), (.closeParen, ")")]

/-- How many levels reading the expression as an operand opens. -/
def openings : Expression → Nat
  | .binary _ left right => max left.openings (right.openings + 1) + 1
  | .unary _ operand => operand.openings + 2
  | .atom _ => 0
  | .call _ => 0

/-- The expression without its positions. -/
def unplaced (value : Expression) : Expression := value.relocate Position.erased

end Expression

/-! ## Cutting into tokens -/

namespace Cursor.Passes

variable {cursor middle last : Cursor} {tokens others : List Token}

theorem trans (first : Passes cursor tokens middle) (second : Passes middle others last) :
    Passes cursor (tokens ++ others) last := by
  induction first with
  | done => exact second
  | token read _ ih => exact .token read (ih second)

/-- White space in front does not matter where there is a token behind it. -/
theorem gap {gap text : List Char} {place : Place} {file : String}
    (passes : Passes ⟨text, place.past gap, file⟩ tokens last) (nonempty : tokens ≠ [])
    (blank : ∀ c ∈ gap, Lexeme.isSpace c = true) :
    Passes ⟨gap ++ text, place, file⟩ tokens last := by
  generalize stands : Cursor.mk text (place.past gap) file = behind at passes
  cases passes with
  | done => exact absurd rfl nonempty
  | token read others =>
      refine .token ?_ others
      rwa [nextToken_gap blank, stands]

end Cursor.Passes

/-- In front of `more`, the text is cut into tokens that say this. -/
def Cuts (text more : List Char) (contents : List (TokenKind × String)) : Prop :=
  ∀ place file, ∃ tokens, tokens.map Token.content = contents ∧
    Cursor.Passes ⟨text ++ more, place, file⟩ tokens ⟨more, place.past text, file⟩

namespace Cuts

variable {text others more : List Char} {contents further : List (TokenKind × String)}

theorem token {token : Token} (spells : token.Spells) (severs : Lexeme.Severs token.kind more) :
    Cuts token.sourceText.toList more [token.content] := by
  intro place file
  obtain ⟨again, same, read⟩ := Cursor.nextToken_spelled spells severs place file
  exact ⟨[again], by rw [List.map_singleton, same], .token read .done⟩

/-- A symbol is cut out of its spelling. -/
theorem symbol {spelling : String} {kind : TokenKind}
    (known : (spelling.toList, kind) ∈ Vocabulary.symbols) (severs : Lexeme.Severs kind more) :
    Cuts spelling.toList more [(kind, spelling)] := by
  have table : ∀ entry ∈ Vocabulary.symbols,
      Lexeme.scan entry.1 = ⟨entry.1, [], .token entry.2 entry.1⟩ ∧
        entry.2 ≠ .stringLiteral ∧ entry.2 ≠ .characterLiteral := by
    decide
  obtain ⟨scanned, notString, notCharacter⟩ := table _ known
  intro place file
  have text : (Token.mk kind spelling ⟨place.inFile file, place.inFile file⟩).sourceText =
      spelling := by
    simp only [Token.sourceText]
  have spells : (Token.mk kind spelling ⟨place.inFile file, place.inFile file⟩).Spells := by
    rw [Token.Spells, text]
    exact scanned
  have cuts := token spells severs
  rw [text] at cuts
  exact cuts place file

theorem append (first : Cuts text (others ++ more) contents) (second : Cuts others more further) :
    Cuts (text ++ others) more (contents ++ further) := by
  intro place file
  obtain ⟨tokens, rfl, passes⟩ := first place file
  obtain ⟨behind, rfl, onward⟩ := second (place.past text) file
  refine ⟨tokens ++ behind, List.map_append, ?_⟩
  rw [List.append_assoc, Place.past_append]
  exact passes.trans onward

theorem space (cuts : Cuts text more contents) (nonempty : contents ≠ []) :
    Cuts (' ' :: text) more contents := by
  intro place file
  obtain ⟨tokens, rfl, passes⟩ := cuts (place.past [' ']) file
  refine ⟨tokens, rfl, ?_⟩
  exact passes.gap (fun nothing => nonempty (by rw [nothing]; rfl))
    (List.forall_mem_singleton.mpr rfl)

theorem openParen : Cuts ['('] more [(.openParen, "(")] :=
  @symbol more "(" .openParen (by decide) (.inl rfl)

theorem closeParen : Cuts [')'] more [(.closeParen, ")")] :=
  @symbol more ")" .closeParen (by decide) (.inl rfl)

end Cuts

theorem Token.sourceText_of_isIdentifier {token : Token} (named : token.kind.isIdentifier = true) :
    token.sourceText = token.value := by
  unfold Token.sourceText
  split
  next kind => rw [kind] at named; cases named
  next kind => rw [kind] at named; cases named
  next => rfl

theorem NextNot.of_kind {kinds : TokenKind → Prop} {token : Token} {kind : TokenKind}
    (has : token.kind = kind) (outside : ¬ kinds kind) (rest : List Token) :
    NextNot kinds (token :: rest) := by
  rintro _ ⟨⟩ inside
  rw [has] at inside
  exact outside inside

/-- No operator has the kind of a closing parenthesis. -/
theorem Grammar.not_joins_closeParen (power : Power) : ¬ Joins power .closeParen := by
  rintro ⟨next, known, _⟩
  cases known

namespace Expression.Writable

/-- An expression that is written out, in front of a separator, is cut into its tokens. -/
theorem cuts {value : Expression} (writable : value.Writable) {more : List Char}
    (severed : ∀ c ∈ more.head?, c ∈ Lexeme.separators) :
    Cuts value.parenthesised.toList more value.written := by
  induction value generalizing more with
  | atom token => exact .token writable.2.spells (.inr severed)
  | call callee =>
      have opens : ∀ c ∈ ('(' :: ')' :: more).head?, c ∈ Lexeme.separators := by
        rintro _ ⟨⟩
        decide
      have name := @Cuts.token ('(' :: ')' :: more) callee writable.2.spells (.inr opens)
      rw [Token.sourceText_of_isIdentifier writable.1] at name
      simpa [parenthesised, written] using name.append (Cuts.openParen.append Cuts.closeParen)
  | unary operator operand ih =>
      obtain ⟨negates, inner⟩ := writable
      obtain ⟨kind, value⟩ := Prod.mk.inj negates
      have closes : ∀ c ∈ (')' :: more).head?, c ∈ Lexeme.separators := by
        rintro _ ⟨⟩
        decide
      have sign : ∀ behind, Cuts ['!'] behind [(.logicalNot, "!")] := fun _ =>
        @Cuts.symbol _ "!" .logicalNot (by decide) (.inl rfl)
      have whole := Cuts.openParen.append
        ((sign _).append ((ih inner closes).append Cuts.closeParen))
      simpa [parenthesised, written, negates, value] using whole
  | binary operator left right leftIH rightIH =>
      obtain ⟨joins, first, second⟩ := writable
      have closes : ∀ c ∈ (')' :: more).head?, c ∈ Lexeme.separators := by
        rintro _ ⟨⟩
        decide
      have spaced : ∀ text : List Char, ∀ c ∈ (' ' :: text).head?, c ∈ Lexeme.separators := by
        rintro text _ ⟨⟩
        decide
      have known : (operator.value.toList, operator.kind) ∈ Vocabulary.symbols := by
        have table : ∀ entry ∈ binaryOperators, (entry.2.toList, entry.1) ∈ Vocabulary.symbols := by
          decide
        exact table operator.content joins
      have last := ((rightIH second closes).append Cuts.closeParen).space (by simp)
      have middle : ∀ text, Cuts (' ' :: operator.value.toList) (' ' :: text)
          [(operator.kind, operator.value)] := fun text =>
        (Cuts.symbol known (.inr (spaced text))).space (List.cons_ne_nil _ [])
      have whole := Cuts.openParen.append
        ((leftIH first (spaced _)).append ((middle _).append last))
      simpa [parenthesised, written, Token.content] using whole

/-- Tokens that say what an expression is written with are read as the expression, wherever they
stand. -/
theorem exists_operand {value : Expression} (writable : value.Writable) {tokens : List Token}
    (same : tokens.map Token.content = value.written) :
    ∃ again : Expression, again.unplaced = value.unplaced ∧
      ∀ rest, NextNot (· = .openParen) rest →
        (Part.operand again).From value.openings (tokens ++ rest) rest := by
  induction value generalizing tokens with
  | atom token =>
      obtain ⟨found, rfl, alike⟩ := List.map_eq_singleton_iff.mp same
      refine ⟨.atom found, congrArg Expression.atom (Token.relocate_erased_eq_iff.mpr alike), ?_⟩
      intro rest alone
      have kind : found.kind = token.kind := congrArg Prod.fst alike
      rw [Writable, ← kind] at writable
      rcases writable.1 with literal | named
      · exact .literal literal
      · exact .name named alone
  | call callee =>
      obtain ⟨found, _, rfl, alike, same⟩ := List.map_eq_cons_iff.mp same
      obtain ⟨opening, _, rfl, opens, same⟩ := List.map_eq_cons_iff.mp same
      obtain ⟨closing, rfl, closes⟩ := List.map_eq_singleton_iff.mp same
      refine ⟨.call found, congrArg Expression.call (Token.relocate_erased_eq_iff.mpr alike), ?_⟩
      intro rest _
      have kind : found.kind = callee.kind := congrArg Prod.fst alike
      have named := writable.1
      rw [← kind] at named
      exact .call named (congrArg Prod.fst opens) (congrArg Prod.fst closes)
  | unary operator operand ih =>
      obtain ⟨opening, _, rfl, opens, same⟩ := List.map_eq_cons_iff.mp same
      obtain ⟨sign, _, rfl, alike, same⟩ := List.map_eq_cons_iff.mp same
      obtain ⟨inner, _, rfl, written, same⟩ := List.map_eq_append_iff.mp same
      obtain ⟨closing, rfl, closes⟩ := List.map_eq_singleton_iff.mp same
      obtain ⟨again, equal, derives⟩ := ih writable.2 written
      have signs := Token.relocate_erased_eq_iff.mpr alike
      refine ⟨.unary sign again, ?_, ?_⟩
      · rw [unplaced, unplaced] at equal
        simp only [unplaced, relocate, signs, equal]
      intro rest _
      have closed : closing.kind = .closeParen := congrArg Prod.fst closes
      have negates : sign.kind = .logicalNot := congrArg Prod.fst (alike.trans writable.1)
      have ends : ∀ power, NextNot (Grammar.Joins power) (closing :: rest) := fun power =>
        .of_kind closed (Grammar.not_joins_closeParen power) rest
      have operand := derives (closing :: rest) (.of_kind closed (by decide) rest)
      have inside := Part.From.unary negates (.expression operand (.last (ends _)))
      have whole := Part.From.expression inside (.last (ends .lowest))
      simpa [openings] using Part.From.grouped (.group (congrArg Prod.fst opens) whole closed)
  | binary operator left right leftIH rightIH =>
      obtain ⟨opening, _, rfl, opens, same⟩ := List.map_eq_cons_iff.mp same
      obtain ⟨first, _, rfl, leftWritten, same⟩ := List.map_eq_append_iff.mp same
      obtain ⟨sign, _, rfl, alike, same⟩ := List.map_eq_cons_iff.mp same
      obtain ⟨second, _, rfl, rightWritten, same⟩ := List.map_eq_append_iff.mp same
      obtain ⟨closing, rfl, closes⟩ := List.map_eq_singleton_iff.mp same
      obtain ⟨joins, leftWritable, rightWritable⟩ := writable
      obtain ⟨leftAgain, leftEqual, leftDerives⟩ := leftIH leftWritable leftWritten
      obtain ⟨rightAgain, rightEqual, rightDerives⟩ := rightIH rightWritable rightWritten
      have signs := Token.relocate_erased_eq_iff.mpr alike
      refine ⟨.binary sign leftAgain rightAgain, ?_, ?_⟩
      · rw [unplaced, unplaced] at leftEqual rightEqual
        simp only [unplaced, relocate, signs, leftEqual, rightEqual]
      intro rest _
      have closed : closing.kind = .closeParen := congrArg Prod.fst closes
      have ends : ∀ power, NextNot (Grammar.Joins power) (closing :: rest) := fun power =>
        .of_kind closed (Grammar.not_joins_closeParen power) rest
      -- Every operator binds more strongly than the lowest power, which a group begins with.
      have table : ∀ entry ∈ binaryOperators, entry.1 ≠ .openParen ∧
          ∃ next ∈ Grammar.standard.powers entry.1, ¬ next ≤ .lowest := by
        decide
      rw [← alike] at joins
      obtain ⟨apart, next, binds, stronger⟩ := table sign.content joins
      have inFront := leftDerives (sign :: second ++ closing :: rest)
        (.of_kind rfl apart (second ++ closing :: rest))
      have behind := rightDerives (closing :: rest) (.of_kind closed (by decide) rest)
      have leftRoom := Nat.le_max_left left.openings (right.openings + 1)
      have rightRoom := Nat.le_max_right left.openings (right.openings + 1)
      have operand := (Part.From.expression behind (.last (ends next))).mono rightRoom
      have whole := Part.From.expression (inFront.mono leftRoom)
        (.further binds stronger operand (.last (ends .lowest)))
      simpa [openings] using Part.From.grouped (.group (congrArg Prod.fst opens) whole closed)

end Expression.Writable

/-! ## Reading -/

namespace Parse

/-- An expression that can be read with enough levels is read with any number of levels, unless they
do not suffice. -/
theorem expression_of_from {power : Power} {value : Expression} {levels : Nat}
    {tokens rest : List Token} {final : Token} {reader : Reader}
    (derives : (Part.expression power value).From levels tokens rest)
    (reads : reader.Reads tokens (.ok final)) (limit fewer : Nat) :
    TooDeep limit ((Productions.within limit fewer).expression power reader) ∨
      ∃ after, (Productions.within limit fewer).expression power reader = .ok value after ∧
        after.Reads rest (.ok final) := by
  have enough := ((within_readsParts (.ok final) limit levels).expression power tokens).complete
    reads derives
  obtain ⟨last, ran, left⟩ := enough.exists_ok
  have expected : (Descent.layerFrom (.ok final) (.above power) tokens).result =
      .ok (value, rest) := by
    obtain ⟨position, after, deep⟩ | agrees :=
      within_readsExpressions limit (.ok final) levels power tokens reader reads
    · cases ran.symm.trans deep
    · rw [ran] at agrees
      cases outcome : (Descent.layerFrom (.ok final) (.above power) tokens).result with
      | error diagnostic =>
          rw [outcome] at agrees
          obtain ⟨after, impossible⟩ := agrees
          cases impossible
      | ok pair =>
          rw [outcome] at agrees
          obtain ⟨after, same, still⟩ := agrees
          cases same
          rw [← left.tokens_eq, still.tokens_eq]
  have mirrored := within_readsExpressions limit (.ok final) fewer power tokens reader reads
  rw [expected] at mirrored
  exact mirrored

end Parse

/-- The run gave an expression that differs in its positions at most, and left nothing to read. -/
def Expression.ReadBack (value : Expression) (run : EStateM.Result Halt Reader Expression) : Prop :=
  ∃ again after final, run = .ok again after ∧ again.unplaced = value.unplaced ∧
    after.Reads [] (.ok final)

/-- An expression that is written out in full parentheses, whatever its shape, is read back, unless
it nests too deeply; and with few enough levels it does not. -/
theorem expression_parenthesised {value : Expression} (writable : value.Writable)
    (file : Option String) :
    (Parse.TooDeep Parse.nestingLimit (Parse.expression Parse.nestingLimit .lowest
        (Reader.ofSource value.parenthesised file)) ∨
      value.ReadBack (Parse.expression Parse.nestingLimit .lowest
        (Reader.ofSource value.parenthesised file))) ∧
      (value.openings < Parse.nestingLimit →
        value.ReadBack (Parse.expression Parse.nestingLimit .lowest
          (Reader.ofSource value.parenthesised file))) := by
  have nothing : ∀ c ∈ ([] : List Char).head?, c ∈ Lexeme.separators := by rintro _ ⟨⟩
  obtain ⟨tokens, same, passes⟩ := writable.cuts nothing .start (file.getD Cursor.unnamed)
  obtain ⟨again, equal, derives⟩ := writable.exists_operand same
  have derives : (Part.expression .lowest again).From (value.openings + 1) (tokens ++ []) [] :=
    .expression (derives [] (by rintro _ ⟨⟩)) (.last (by rintro _ ⟨⟩))
  obtain ⟨final, reads⟩ : ∃ final, (Reader.ofSource value.parenthesised file).Reads (tokens ++ [])
      (.ok final) := by
    obtain ⟨stream, ending⟩ := passes.stream_eq
    have ended := @Cursor.stream_of_end
      ⟨[], Place.start.past value.parenthesised.toList, file.getD Cursor.unnamed⟩ rfl
    rw [List.append_nil, ended] at stream ending
    exact ⟨_, stream, ending, rfl⟩
  constructor
  · obtain deep | ⟨after, ran, left⟩ := Parse.expression_of_from derives reads Parse.nestingLimit
      Parse.nestingLimit
    · exact .inl deep
    · exact .inr ⟨again, after, final, ran, equal, left⟩
  · intro few
    have exact := (Parse.within_readsParts (.ok final) Parse.nestingLimit
      Parse.nestingLimit).expression .lowest (tokens ++ [])
    obtain ⟨after, ran, left⟩ := (exact.complete reads (derives.mono few)).exists_ok
    exact ⟨again, after, final, ran, equal, left⟩

/-- A percent sign beside the sigil of a hash, numbers that begin and end with their point, a quoted
parenthesis, and a tree that precedence alone would not build. -/
theorem expression_parenthesised_tight :
    ∃ value : Expression,
      value.parenthesised = "((%h % .5) * ((!(!@f())) || (1. - \")\")))" ∧
      value.ReadBack (Parse.expression Parse.nestingLimit .lowest
        (Reader.ofSource "((%h % .5) * ((!(!@f())) || (1. - \")\")))" none)) := by
  let nowhere : Position := ⟨0, 0, 0, ""⟩
  let token (kind : TokenKind) (text : String) : Token := ⟨kind, text, ⟨nowhere, nowhere⟩⟩
  let value : Expression :=
    .binary (token .star "*")
      (.binary (token .percent "%") (.atom (token (.identifier .hash .everyone) "%h"))
        (.atom (token .floatLiteral ".5")))
      (.binary (token .logicalOr "||")
        (.unary (token .logicalNot "!") (.unary (token .logicalNot "!")
          (.call (token (.identifier .array .everyone) "@f"))))
        (.binary (token .dash "-") (.atom (token .floatLiteral "1."))
          (.atom (token .stringLiteral ")"))))
  have writable : value.Writable := by
    refine ⟨by decide, ⟨by decide, ⟨.inr rfl, ?_⟩, ⟨.inl rfl, ?_⟩⟩, by decide, ⟨rfl, rfl, rfl, ?_⟩,
      by decide, ⟨.inl rfl, ?_⟩, ⟨.inl rfl, ?_⟩⟩
    · exact ⟨.ofSource "%h" none, _, _, rfl, rfl⟩
    · exact ⟨.ofSource ".5" none, _, _, rfl, rfl⟩
    · exact ⟨.ofSource "@f" none, _, _, rfl, rfl⟩
    · exact ⟨.ofSource "1." none, _, _, rfl, rfl⟩
    · refine ⟨.ofSource "\")\"" none, ⟨[], ⟨3, 1, 4⟩, "shell"⟩,
        ⟨.stringLiteral, ")", ⟨⟨0, 1, 1, "shell"⟩, ⟨3, 1, 4, "shell"⟩⟩⟩, by decide +kernel, rfl⟩
  have text : value.parenthesised = "((%h % .5) * ((!(!@f())) || (1. - \")\")))" := by
    decide +kernel
  have back := (expression_parenthesised writable none).2 (by decide)
  rw [text] at back
  exact ⟨value, text, back⟩

end Scriptlet
