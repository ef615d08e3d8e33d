import Scriptlet.Proofs.Lexing.Symbols

/-!
# Cutting a text behind a token

A scanner may look at characters behind the token that it reads, so what follows a token can matter
to it.  It does not matter in one direction: what is read as a token in front of more text is read
as the same token if that text is cut away (`scan_confined`).
-/

namespace Scriptlet.Lexeme

/-- What the scanner reads as a token without touching the text behind is the same token without
that text. -/
def Confined (scanner : List Char → Scan) : Prop :=
  ∀ (text more : List Char) (kind : TokenKind) (value : List Char),
    (scanner (text ++ more)).reading = .token kind value →
    more.length ≤ (scanner (text ++ more)).rest.length →
    (scanner text).reading = .token kind value ∧
      (scanner text).taken = (scanner (text ++ more)).taken

/-! ## Runs of characters -/

/-- A run that ends within the front part of a text is the run of that part. -/
theorem takeWhile_confined {accepted : Char → Bool} {text more : List Char}
    (within : ((text ++ more).takeWhile accepted).length ≤ text.length) :
    text.takeWhile accepted = (text ++ more).takeWhile accepted := by
  rw [List.takeWhile_append] at within ⊢
  split at within
  next whole =>
    rw [if_pos whole]
    rw [List.length_append] at within
    have none : more.takeWhile accepted = [] := List.length_eq_zero_iff.mp (by omega)
    rw [none, List.append_nil]
    exact (List.takeWhile_prefix accepted).eq_of_length whole
  next part => rw [if_neg part]

/-- A run that leaves all of the text behind ends within the front part. -/
theorem length_takeWhile_le {accepted : Char → Bool} {text more : List Char}
    (kept : more.length ≤ ((text ++ more).dropWhile accepted).length) :
    ((text ++ more).takeWhile accepted).length ≤ text.length := by
  have whole : ((text ++ more).takeWhile accepted ++ (text ++ more).dropWhile accepted).length =
      (text ++ more).length := by
    rw [List.takeWhile_append_dropWhile]
  simp only [List.length_append] at whole
  omega

/-- The same for a run of at most so many characters. -/
theorem takeWhile_take_confined {accepted : Char → Bool} {count : Nat} {text more : List Char}
    (within : (((text ++ more).take count).takeWhile accepted).length ≤ text.length) :
    (text.take count).takeWhile accepted = ((text ++ more).take count).takeWhile accepted := by
  rw [List.take_append] at within ⊢
  by_cases short : count ≤ text.length
  · rw [Nat.sub_eq_zero_of_le short, List.take_zero, List.append_nil]
  · rw [List.take_of_length_le (by omega)] at within ⊢
    exact takeWhile_confined within

/-! ## Words and symbols -/

theorem variableName_confined (kind : VariableKind) : Confined (variableName kind) := by
  intro text more tokenKind value reading kept
  unfold variableName at reading kept
  split at reading
  next => cases reading
  next first others run =>
    rw [run] at kept
    have same := takeWhile_confined (length_takeWhile_le kept)
    simp only [variableName, same, run]
    exact ⟨reading, rfl⟩

theorem vocabularyWord_confined (accepted : Char → Bool) (vocabulary : Vocabulary)
    (unknown : String → Cause) : Confined (vocabularyWord accepted vocabulary unknown) := by
  intro text more kind value reading kept
  unfold vocabularyWord at reading kept
  dsimp only at reading kept
  split at reading
  next found known =>
    rw [known] at kept
    have same := takeWhile_confined (length_takeWhile_le kept)
    simp only [vocabularyWord, same, known]
    exact ⟨reading, rfl⟩
  next => cases reading

theorem symbol_confined : Confined symbol := by
  intro text more kind value reading kept
  have isLongest := isLongestSymbol_of_reading reading
  rw [symbol_of_isLongestSymbol isLongest] at kept ⊢
  have within : value.length ≤ text.length := by
    have fits := isLongest.begins.length_le
    simp only [Scan.verbatim, List.length_drop, List.length_append] at kept fits
    omega
  have alone : IsLongestSymbol text (value, kind) :=
    isLongestSymbol_iff.mpr ⟨isLongest.listed,
      List.prefix_of_prefix_length_le isLongest.begins (List.prefix_append _ _) within⟩
  rw [symbol_of_isLongestSymbol alone]
  exact ⟨rfl, rfl⟩

/-! ## Numbers -/

theorem run_confined {state : Number.State} {text more : List Char}
    (kept : more.length ≤ (Number.run state (text ++ more)).rest.length) :
    (Number.run state text).taken = (Number.run state (text ++ more)).taken ∧
      (Number.run state text).state = (Number.run state (text ++ more)).state := by
  induction text generalizing state with
  | nil =>
      have split := congrArg List.length (Number.run_split state more)
      rw [List.length_append] at split
      have nothing : (Number.run state more).taken = [] :=
        List.length_eq_zero_iff.mp (by simp at kept; omega)
      rw [List.nil_append, nothing, Number.run_state_of_taken_nil state more nothing]
      exact ⟨rfl, rfl⟩
  | cons character text ih =>
      rw [List.cons_append] at kept ⊢
      simp only [Number.run] at kept ⊢
      split at kept
      next => simp
      next =>
        rcases ih kept with ⟨taken, reached⟩
        simp [taken, reached]

theorem number_confined : Confined number := by
  intro text more kind value reading kept
  unfold number at reading kept
  dsimp only at reading kept
  split at reading
  next found verdict =>
    rw [verdict] at kept
    rcases run_confined kept with ⟨taken, reached⟩
    simp only [number, taken, reached, verdict]
    exact ⟨reading, rfl⟩
  next => cases reading

/-! ## Quoted literals -/

/-- Digits that leave all of the text behind stand in the front part. -/
theorem length_digits_le {digits text more : List Char} (front : digits <+: text ++ more)
    (kept : more.length ≤ ((text ++ more).drop digits.length).length) :
    digits.length ≤ text.length := by
  have within := front.length_le
  simp only [List.length_drop, List.length_append] at kept within
  omega

theorem escape_confined {letter : Char} {text more unit rest : List Char}
    (first : Piece.escape letter (text ++ more) = .unit unit rest)
    (kept : more.length ≤ rest.length) :
    ∃ left, Piece.escape letter text = .unit unit left := by
  unfold Piece.escape at first ⊢
  split at first
  next simple =>
    rw [if_pos simple]
    cases first
    exact ⟨text, rfl⟩
  next plain =>
    rw [if_neg plain]
    split at first
    next hexadecimal =>
      rw [if_pos hexadecimal]
      cases run : (text ++ more).takeWhile isHexDigit with
      | nil =>
          rw [run] at first
          cases first
      | cons digit digits =>
          rw [run] at first
          cases first
          have front : (text ++ more).takeWhile isHexDigit <+: text ++ more :=
            List.takeWhile_prefix isHexDigit
          rw [run] at front
          have short := length_digits_le front kept
          rw [← run] at short
          rw [takeWhile_confined short, run]
          exact ⟨_, rfl⟩
    next other =>
      rw [if_neg other]
      split at first
      next count fixed =>
        have front := ((List.takeWhile_prefix isHexDigit).trans
          (List.take_prefix count (text ++ more)))
        dsimp only at first ⊢
        split at first
        next enough =>
          cases first
          rw [takeWhile_take_confined (length_digits_le front kept), if_pos enough]
          exact ⟨_, rfl⟩
        next => cases first
      next =>
        split at first
        next octal =>
          have front := ((List.takeWhile_prefix isOctalDigit).trans
            (List.take_prefix 2 (text ++ more)))
          cases first
          rw [if_pos octal, takeWhile_take_confined (length_digits_le front kept)]
          exact ⟨_, rfl⟩
        next => cases first

/-- An escape takes its backslash and its letter at least. -/
theorem two_le_length_escape {letter : Char} {text unit rest : List Char}
    (first : Piece.escape letter text = .unit unit rest) : 2 ≤ unit.length := by
  unfold Piece.escape at first
  dsimp only at first
  repeat' split at first
  all_goals cases first
  all_goals simp

theorem first_confined {text more unit rest : List Char}
    (first : Piece.first (text ++ more) = .unit unit rest) (kept : more.length ≤ rest.length) :
    ∃ left, Piece.first text = .unit unit left ∧ rest = left ++ more := by
  have whole := Piece.append_of_unit first
  obtain ⟨left, own⟩ : ∃ left, Piece.first text = .unit unit left := by
    cases text with
    | nil => exact absurd (Piece.rest_lt_of_unit first) (by simp; omega)
    | cons character text =>
        simp only [List.cons_append, Piece.first] at first ⊢
        split at first
        next backslash =>
          rw [if_pos backslash]
          cases text with
          | nil =>
              cases more with
              | nil => cases first
              | cons letter more =>
                  have long := two_le_length_escape first
                  have length := congrArg List.length whole
                  simp only [List.length_append, List.length_cons, List.length_nil] at length kept
                  omega
          | cons letter text => exact escape_confined first kept
        next plain =>
          rw [if_neg plain]
          cases first
          exact ⟨text, rfl⟩
  refine ⟨left, own, ?_⟩
  rw [← Piece.append_of_unit own, List.append_assoc] at whole
  exact List.append_cancel_left whole

/-- A body that is closed before the text behind it is closed without that text. -/
theorem read_confined {quote : Char} {text more value rest : List Char}
    (closed : Body.read quote (text ++ more) = .closed value rest)
    (kept : more.length ≤ rest.length) :
    ∃ left, Body.read quote text = .closed value left := by
  obtain ⟨whole, same⟩ : ∃ whole, whole = text ++ more := ⟨_, rfl⟩
  rw [← same] at closed
  fun_induction Body.read quote whole generalizing text value with
  | case1 whole opened =>
      subst same
      cases closed
      cases text with
      | nil =>
          cases more with
          | nil => cases opened
          | cons character more => exact absurd kept (Nat.not_succ_le_self _)
      | cons character text =>
          refine ⟨text, ?_⟩
          rw [Body.read, if_pos (by simpa using opened)]
          rfl
  | case2 whole unopened unit after first ih =>
      subst same
      cases inner : Body.read quote after with
      | wrong | ended =>
          rw [inner] at closed
          cases closed
      | closed body behind =>
          rw [inner] at closed
          cases closed
          have split := congrArg List.length (Body.whole_read quote after)
          rw [inner] at split
          simp only [Body.whole, List.length_append, List.length_cons] at split
          rcases first_confined first (by omega) with ⟨left, own, rfl⟩
          rcases ih inner rfl with ⟨last, read⟩
          refine ⟨last, ?_⟩
          cases text with
          | nil => cases own
          | cons character text =>
              rw [Body.read, if_neg (by simpa using unopened)]
              split
              next other rest found =>
                cases own.symm.trans found
                rw [read]
                rfl
              next found => cases own.symm.trans found
              next found => cases own.symm.trans found
  | case3 => cases closed
  | case4 => cases closed

theorem stringLiteral_confined : Confined stringLiteral := by
  intro text more kind value reading kept
  unfold stringLiteral at reading kept
  split at reading
  next body rest closed =>
    rw [closed] at kept
    rcases read_confined closed kept with ⟨left, own⟩
    simp only [stringLiteral, own, closed]
    exact ⟨reading, trivial⟩
  next => cases reading
  next => cases reading

theorem characterLiteral_confined : Confined characterLiteral := by
  intro text more kind value reading kept
  unfold characterLiteral at reading kept
  split at reading
  next => cases reading
  next unopened =>
    rw [if_neg unopened] at kept
    split at reading
    next => cases reading
    next => cases reading
    next => cases reading
    next unit next rest first =>
      simp only [first] at kept
      split at reading
      next quote =>
        rw [if_pos quote] at kept
        change more.length ≤ rest.length at kept
        rcases first_confined first (Nat.le_succ_of_le kept) with ⟨left, own, same⟩
        cases left with
        | nil =>
            have length := congrArg List.length same
            simp only [List.length_cons, List.length_append, List.length_nil] at length
            omega
        | cons head left =>
            cases same
            have outside : text.head? ≠ some '\'' := by
              cases text with
              | nil => cases own
              | cons character text => simpa using unopened
            simp only [characterLiteral, if_neg outside, if_neg unopened, own, first, if_pos quote]
            exact ⟨reading, trivial⟩
      next => cases reading

/-! ## Lexemes -/

/-- Scanning behind a first character that is part of the lexeme. -/
theorem Confined.cons {scanner : List Char → Scan} (confined : Confined scanner)
    (character : Char) : Confined fun text => scanner (character :: text) := by
  intro text more kind value reading kept
  exact confined (character :: text) more kind value reading kept

/-- Two scanners with a choice between them that the text has no part in. -/
theorem Confined.ite {condition : Prop} [Decidable condition] {one other : List Char → Scan}
    (yes : Confined one) (no : Confined other) :
    Confined fun text => if condition then one text else other text := by
  by_cases holds : condition
  · simpa only [if_pos holds] using yes
  · simpa only [if_neg holds] using no

/-- How to go on behind the first character of a lexeme.  Only a percent sign needs to be told
whether it is an operator. -/
def scanAfter (operator : Bool) (character : Char) (text : List Char) : Scan :=
  if character = '%' && operator then symbol (character :: text)
  else if let some kind := VariableKind.ofSigil? character then variableName kind text
  else if character = '.' || character.isDigit then number (character :: text)
  else if character = '"' then stringLiteral text
  else if character = '\'' then characterLiteral text
  else if isSymbolPart character then symbol (character :: text)
  else if character.isUpper then typeName (character :: text)
  else if character.isLower then reservedWord (character :: text)
  else .faulty (.unrecognisedCharacter character) [] (character :: text)

theorem scan_cons (character : Char) (text : List Char) :
    scan (character :: text) = scanAfter (isPercentOperator text) character text := rfl

theorem scanAfter_confined (operator : Bool) (character : Char) :
    Confined (scanAfter operator character) := by
  unfold scanAfter
  apply Confined.ite (symbol_confined.cons character)
  cases VariableKind.ofSigil? character with
  | some kind => exact variableName_confined kind
  | none =>
      apply Confined.ite (number_confined.cons character)
      apply Confined.ite stringLiteral_confined
      apply Confined.ite characterLiteral_confined
      apply Confined.ite (symbol_confined.cons character)
      apply Confined.ite ((vocabularyWord_confined _ _ _).cons character)
      apply Confined.ite ((vocabularyWord_confined _ _ _).cons character)
      intro text more kind value reading
      cases reading

/-- Whatever is read as a token is read as the same token if the text behind it is cut away. -/
theorem scan_confined : Confined scan := by
  intro text more kind value reading kept
  cases text with
  | nil =>
      have shorter := (scan_of ([] ++ more)).rest_lt reading
      exact absurd kept (Nat.not_le_of_lt shorter)
  | cons character text =>
      rw [List.cons_append, scan_cons] at reading kept
      have same : scanAfter (isPercentOperator (text ++ more)) character =
          scanAfter (isPercentOperator text) character := by
        cases text with
        | cons next text => rfl
        | nil =>
            by_cases percent : character = '%'
            · subst percent
              -- A name behind the percent sign would be part of the token, and cannot be cut away.
              cases operator : isPercentOperator ([] ++ more) with
              | true => rfl
              | false =>
                  rw [operator] at reading kept
                  have alone := variableName_confined .hash [] more kind value reading kept
                  cases alone.1
            · funext text
              simp [scanAfter, percent]
      rw [List.cons_append, scan_cons, scan_cons, same]
      rw [same] at reading kept
      exact scanAfter_confined _ character text more kind value reading kept

end Scriptlet.Lexeme
