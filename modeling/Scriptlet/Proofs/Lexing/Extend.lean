import Scriptlet.Proofs.Lexing.Cut

/-!
# More text behind a token

Cutting away what follows a token never changes the token.  Adding text behind it can: `1` and `2`
are the token `12` if nothing stands between them.  A token stays what it is if other text follows
it already, if white space or a parenthesis comes next, or if it is of a kind that ends by itself
(`scan_extends`).
-/

namespace Scriptlet

/-- Tokens of such a kind end by themselves, whatever follows: quoted literals, and all symbols but
the percent sign, which makes a variable of a name behind it. -/
def TokenKind.endsItself : TokenKind → Bool
  | .stringLiteral | .characterLiteral => true
  | .openBracket | .closeBracket | .openCurly | .closeCurly | .openParen | .closeParen => true
  | .assign | .logicalNot | .logicalOr | .logicalAnd | .semicolon => true
  | .plus | .dash | .slash | .star => true
  | _ => false

namespace Lexeme

/-- The characters that no token goes on with: white space and parentheses. -/
def separators : List Char := [' ', '\t', '\r', '\n', '\x0B', '\x0C', '(', ')']

/-- A token of the kind cannot go on in the text behind it: it ends by itself, or a separator comes
next, or nothing does. -/
def Severs (kind : TokenKind) (more : List Char) : Prop :=
  kind.endsItself = true ∨ ∀ character ∈ more.head?, character ∈ separators

theorem mem_separators_of_isSpace {character : Char} (space : isSpace character = true) :
    character ∈ separators := by
  simp only [isSpace, Bool.or_eq_true, beq_iff_eq, or_assoc] at space
  rcases space with rfl | rfl | rfl | rfl | rfl | rfl <;> decide

/-- The scan with more text left behind it. -/
def Scan.before (scan : Scan) (more : List Char) : Scan :=
  { scan with rest := scan.rest ++ more }

/-- What the scanner reads as a token is the same token in front of more text, unless the token goes
right up to this text and could go on in it. -/
def Extends (scanner : List Char → Scan) : Prop :=
  ∀ (text more : List Char) (kind : TokenKind) (value : List Char),
    (scanner text).reading = .token kind value →
    ((scanner text).rest = [] → Severs kind more) →
    scanner (text ++ more) = (scanner text).before more

/-! ## Runs of characters -/

/-- A token that does not end by itself is severed by separators only. -/
theorem Severs.rejected {kind : TokenKind} {more : List Char} {accepted : Char → Bool}
    (severs : Severs kind more) (loose : kind.endsItself = false)
    (table : (separators.all fun separator => !accepted separator) = true) :
    ∀ character ∈ more.head?, accepted character = false := by
  intro character next
  rcases severs with tight | apart
  · rw [loose] at tight
    cases tight
  · simpa using List.all_eq_true.mp table character (apart character next)

/-- A run that ends within a text, or in front of a character that it does not accept, is the same
in front of more text. -/
theorem takeWhile_extends {accepted : Char → Bool} {text more : List Char}
    (stops : text.dropWhile accepted = [] → ∀ next ∈ more.head?, accepted next = false) :
    (text ++ more).takeWhile accepted = text.takeWhile accepted ∧
      (text ++ more).dropWhile accepted = text.dropWhile accepted ++ more := by
  induction text with
  | nil =>
      cases more with
      | nil => exact ⟨rfl, rfl⟩
      | cons next more =>
          have refused := stops rfl next rfl
          simp [refused]
  | cons character text ih =>
      by_cases accepts : accepted character = true
      · rw [List.dropWhile_cons_of_pos accepts] at stops
        simp [accepts, ih stops]
      · simp [accepts]

/-- The same for a run of at most so many characters that leaves some of the text. -/
theorem takeWhile_take_extends {accepted : Char → Bool} {count : Nat} {text : List Char}
    (left : text.drop ((text.take count).takeWhile accepted).length ≠ []) (more : List Char) :
    ((text ++ more).take count).takeWhile accepted = (text.take count).takeWhile accepted := by
  induction text generalizing count with
  | nil => simp at left
  | cons character text ih =>
      cases count with
      | zero => rfl
      | succ count =>
          by_cases accepts : accepted character = true
          · simp only [List.take_succ_cons, List.takeWhile_cons_of_pos accepts, List.length_cons,
              List.drop_succ_cons] at left
            simp [accepts, ih left]
          · simp [accepts]

/-- What is left of a text, and of the text with more behind it. -/
theorem drop_extends {taken text : List Char} (front : taken <+: text) (more : List Char) :
    (text ++ more).drop taken.length = text.drop taken.length ++ more :=
  List.drop_append_of_le_length front.length_le

/-! ## Words -/

theorem variableName_extends (kind : VariableKind) : Extends (variableName kind) := by
  intro text more tokenKind value reading severs
  unfold variableName at reading severs ⊢
  split at reading
  next => cases reading
  next first others run =>
    cases reading
    rw [run] at severs
    have extended := @takeWhile_extends isNamePart text more fun finished =>
      (severs finished).rejected rfl (by decide)
    rw [extended.1, extended.2, run]
    rfl

theorem vocabularyWord_extends {accepted : Char → Bool} {vocabulary : Vocabulary}
    {unknown : String → Cause} (loose : ∀ entry ∈ vocabulary, entry.2.endsItself = false)
    (table : (separators.all fun separator => !accepted separator) = true) :
    Extends (vocabularyWord accepted vocabulary unknown) := by
  intro text more kind value reading severs
  unfold vocabularyWord at reading severs ⊢
  dsimp only at reading severs ⊢
  split at reading
  next found known =>
    cases reading
    rw [known] at severs
    have plain : kind.endsItself = false := by
      rcases List.lookup_eq_some_iff.mp known with ⟨before, after, same, _⟩
      exact loose (text.takeWhile accepted, kind) (by simp [same])
    have extended := @takeWhile_extends accepted text more fun finished =>
      (severs finished).rejected plain table
    rw [extended.1, extended.2, known]
    rfl
  next => cases reading

/-! ## Symbols -/

/-- A symbol stays the same symbol, whatever follows. -/
theorem symbol_extends {text : List Char} {kind : TokenKind} {value : List Char}
    (reading : (symbol text).reading = .token kind value) (more : List Char) :
    symbol (text ++ more) = (symbol text).before more := by
  have isLongest := isLongestSymbol_of_reading reading
  have still : IsLongestSymbol (text ++ more) (value, kind) :=
    isLongestSymbol_iff.mpr ⟨isLongest.listed, isLongest.begins.trans (List.prefix_append _ _)⟩
  rw [symbol_of_isLongestSymbol still, symbol_of_isLongestSymbol isLongest]
  simp only [Scan.verbatim, Scan.before, drop_extends isLongest.begins]

/-! ## Numbers -/

namespace Number

/-- The letter that a state remembers is a mark for long integers. -/
def State.Marked : State → Prop
  | .unsignedLong letter | .long letter => State.isLongMark letter = true
  | _ => True

theorem State.Marked.step {state next : State} {character : Char}
    (moved : state.step character = some next) : next.Marked := by
  cases state <;> grind [State.step, State.suffix?, State.afterDigits?, State.Marked]

/-- No number goes on with a separator. -/
theorem State.Marked.step_separator {state : State} (marked : state.Marked) {character : Char}
    (separator : character ∈ separators) : state.step character = none := by
  simp only [separators, List.mem_cons, List.not_mem_nil, or_false] at separator
  rcases separator with rfl | rfl | rfl | rfl | rfl | rfl | rfl | rfl
  all_goals
    cases state with
    | unsignedLong letter => grind [State.step, State.Marked, State.isLongMark]
    | long letter => grind [State.step, State.Marked, State.isLongMark, State.isUnsignedMark]
    | _ => rfl

theorem run_extends {state : State} (marked : state.Marked) {text more : List Char}
    (apart : (run state text).rest = [] → ∀ next ∈ more.head?, next ∈ separators) :
    run state (text ++ more) =
      ⟨(run state text).taken, (run state text).rest ++ more, (run state text).state⟩ := by
  induction text generalizing state with
  | nil =>
      cases more with
      | nil => rfl
      | cons next more =>
          have stuck := marked.step_separator (apart rfl next rfl)
          simp [run, stuck]
  | cons character text ih =>
      rw [List.cons_append, run.eq_def state (character :: (text ++ more))]
      rw [run.eq_def state (character :: text)] at apart ⊢
      dsimp only at apart ⊢
      cases moved : state.step character with
      | none => rfl
      | some next =>
          rw [moved] at apart
          dsimp only at apart ⊢
          rw [ih (.step moved) apart]

end Number

theorem number_extends : Extends number := by
  intro text more kind value reading severs
  unfold number at reading severs ⊢
  dsimp only at reading severs ⊢
  split at reading
  next found verdict =>
    cases reading
    rw [verdict] at severs
    have loose : kind.endsItself = false := by
      cases state : (Number.run .nothing text).state <;> rw [state] at verdict <;>
        cases verdict <;> rfl
    have apart : (Number.run .nothing text).rest = [] →
        ∀ next ∈ more.head?, next ∈ separators := by
      intro finished
      rcases severs finished with tight | apart
      · cases loose.symm.trans tight
      · exact apart
    have nothing : Number.State.Marked .nothing := trivial
    rw [Number.run_extends nothing apart, verdict]
    rfl
  next => cases reading

/-! ## Quoted literals -/

theorem escape_extends {letter : Char} {text unit rest : List Char}
    (first : Piece.escape letter text = .unit unit rest) (left : rest ≠ []) (more : List Char) :
    Piece.escape letter (text ++ more) = .unit unit (rest ++ more) := by
  unfold Piece.escape at first ⊢
  split at first
  next simple =>
    rw [if_pos simple]
    cases first
    rfl
  next plain =>
    rw [if_neg plain]
    split at first
    next hexadecimal =>
      rw [if_pos hexadecimal]
      cases run : text.takeWhile isHexDigit with
      | nil =>
          rw [run] at first
          cases first
      | cons digit digits =>
          rw [run] at first
          cases first
          have front : text.takeWhile isHexDigit <+: text := List.takeWhile_prefix isHexDigit
          have whole := @List.takeWhile_append_dropWhile _ isHexDigit text
          have still := @takeWhile_extends isHexDigit text more fun finished => by
            rw [finished, List.append_nil, run] at whole
            rw [← whole, List.drop_length] at left
            exact absurd rfl left
          rw [run] at front still
          rw [still.1, ← drop_extends front]
    next other =>
      rw [if_neg other]
      split at first
      next count fixed =>
        have front := ((List.takeWhile_prefix isHexDigit).trans (List.take_prefix count text))
        dsimp only at first ⊢
        split at first
        next enough =>
          cases first
          rw [takeWhile_take_extends left, if_pos enough, drop_extends front]
        next => cases first
      next =>
        split at first
        next octal =>
          have front := ((List.takeWhile_prefix isOctalDigit).trans (List.take_prefix 2 text))
          cases first
          rw [if_pos octal, takeWhile_take_extends left, ← drop_extends front]
        next => cases first

theorem first_extends {text unit rest : List Char} (first : Piece.first text = .unit unit rest)
    (left : rest ≠ []) (more : List Char) :
    Piece.first (text ++ more) = .unit unit (rest ++ more) := by
  cases text with
  | nil => cases first
  | cons character text =>
      simp only [List.cons_append, Piece.first] at first ⊢
      split at first
      next backslash =>
        rw [if_pos backslash]
        cases text with
        | nil => cases first
        | cons letter text => exact escape_extends first left more
      next plain =>
        rw [if_neg plain]
        cases first
        rfl

/-- A closed body is closed by the same quote, whatever follows. -/
theorem read_extends {quote : Char} {text value rest : List Char}
    (closed : Body.read quote text = .closed value rest) (more : List Char) :
    Body.read quote (text ++ more) = .closed value (rest ++ more) := by
  fun_induction Body.read quote text generalizing value with
  | case1 text opened =>
      cases closed
      cases text with
      | nil => cases opened
      | cons character text =>
          rw [List.cons_append, Body.read, if_pos (by simpa using opened)]
          rfl
  | case2 text unopened unit after first ih =>
      cases inner : Body.read quote after with
      | wrong | ended =>
          rw [inner] at closed
          cases closed
      | closed body behind =>
          rw [inner] at closed
          cases closed
          have left : after ≠ [] := by
            rintro rfl
            have whole := Body.whole_read quote []
            rw [inner] at whole
            simp [Body.whole] at whole
          have longer := first_extends first left more
          cases text with
          | nil => cases first
          | cons character text =>
              rw [List.cons_append] at longer ⊢
              rw [Body.read, if_neg (by simpa using unopened)]
              split
              next other rest found =>
                cases longer.symm.trans found
                rw [ih inner]
                rfl
              next found => cases longer.symm.trans found
              next found => cases longer.symm.trans found
  | case3 => cases closed
  | case4 => cases closed

theorem stringLiteral_extends : Extends stringLiteral := by
  intro text more kind value reading _
  unfold stringLiteral at reading ⊢
  split at reading
  next body rest closed =>
    rw [read_extends closed]
    rfl
  next => cases reading
  next => cases reading

theorem characterLiteral_extends : Extends characterLiteral := by
  intro text more kind value reading _
  unfold characterLiteral at reading ⊢
  split at reading
  next => cases reading
  next unopened =>
    have outside : (text ++ more).head? ≠ some '\'' := by
      cases text with
      | nil => cases reading
      | cons character text => simpa using unopened
    rw [if_neg outside, if_neg unopened]
    split at reading
    next => cases reading
    next => cases reading
    next => cases reading
    next unit next rest first =>
      rw [first_extends first (List.cons_ne_nil _ _)]
      split at reading
      next quote =>
        simp only [List.cons_append, if_pos quote]
        rfl
      next => cases reading

/-! ## Lexemes -/

/-- Scanning behind a first character that is part of the lexeme. -/
theorem Extends.cons {scanner : List Char → Scan} (extended : Extends scanner)
    (character : Char) : Extends fun text => scanner (character :: text) := by
  intro text more kind value reading severs
  exact extended (character :: text) more kind value reading severs

/-- Two scanners with a choice between them that the text has no part in. -/
theorem Extends.ite {condition : Prop} [Decidable condition] {one other : List Char → Scan}
    (yes : Extends one) (no : Extends other) :
    Extends fun text => if condition then one text else other text := by
  by_cases holds : condition
  · simpa only [if_pos holds] using yes
  · simpa only [if_neg holds] using no

theorem scanAfter_extends (operator : Bool) (character : Char) :
    Extends (scanAfter operator character) := by
  have symbols : Extends symbol := fun text more kind value reading _ =>
    symbol_extends reading more
  unfold scanAfter
  apply Extends.ite (symbols.cons character)
  cases VariableKind.ofSigil? character with
  | some kind => exact variableName_extends kind
  | none =>
      apply Extends.ite (number_extends.cons character)
      apply Extends.ite stringLiteral_extends
      apply Extends.ite characterLiteral_extends
      apply Extends.ite (symbols.cons character)
      apply Extends.ite ((vocabularyWord_extends (by decide) (by decide)).cons character)
      apply Extends.ite ((vocabularyWord_extends (by decide) (by decide)).cons character)
      intro text more kind value reading
      cases reading

/-- Whatever is read as a token is read as the same token in front of more text, unless it goes
right up to this text and could go on in it. -/
theorem scan_extends : Extends scan := by
  intro text more kind value reading severs
  cases text with
  | nil => cases reading
  | cons character text =>
      rw [List.cons_append]
      rw [scan_cons] at reading severs ⊢
      have same : scanAfter (isPercentOperator (text ++ more)) character =
          scanAfter (isPercentOperator text) character := by
        cases text with
        | cons next text => rfl
        | nil =>
            by_cases percent : character = '%'
            · subst percent
              -- Nothing follows the percent sign, so it is an operator, and only a separator can
              -- keep it one.
              cases reading
              have nameless : ∀ next ∈ more.head?, isNamePart next = false :=
                (severs rfl).rejected rfl (by decide)
              have operator : isPercentOperator more = true := by
                cases more with
                | nil => rfl
                | cons next more => simp [isPercentOperator, nameless next rfl]
              rw [List.nil_append, operator]
              rfl
            · funext text
              simp [scanAfter, percent]
      rw [scan_cons, same]
      exact scanAfter_extends _ character text more kind value reading severs

end Lexeme

end Scriptlet
