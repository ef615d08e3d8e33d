import Scriptlet.Proofs.Composition.Laziness
import Scriptlet.Proofs.Diagnostic.Anchor
import Scriptlet.Proofs.Session.Drivers

/-!
# What lexical faults quote

A lexical fault quotes the source.  What it carries stands in the source at its position, or right
behind the backslash or the quote there (`Cause.Quotes`).  Each scanner keeps to this on its own
(`Lexeme.Scan.Quotes`), with offsets counted from where its lexeme begins.

The tokens in front of a fault do not depend on it: a source that is cut off behind any of them is
cut into the tokens up to there (`tokenize_quotes`).
-/

namespace Scriptlet

/-- What the cause carries stands in the text at this offset.  The lexeme that cannot be read begins
at `begin`. -/
def Cause.Quotes (text : List Char) (begin offset : Nat) : Cause → Prop
  | .unrecognisedCharacter character => text[offset]? = some character
  | .invalidIdentifier name => ∃ sigil ∈ ['$', '@'], name = String.ofList [sigil] ∧
      text[offset]? = some sigil ∧ ∀ c ∈ text[offset + 1]?, Lexeme.isNamePart c = false
  | .invalidNumber digits _ => digits ≠ "" ∧ digits.toList <+: text.drop offset
  | .invalidEscape sequence => text[offset]? = some '\\' ∧ sequence ≠ "" ∧
      sequence.toList <+: text.drop (offset + 1)
  | .invalidCharacterLiteral shown => text[offset]? = some '\'' ∧
      shown.toList <+: text.drop (offset + 1)
  | .unterminatedLiteral quote => offset = text.length ∧ text[begin]? = some quote
  | .unknownKeyword word => word ≠ "" ∧ word.toList = (text.drop offset).takeWhile Char.isLower
  | .unknownType word => word ≠ "" ∧ word.toList = (text.drop offset).takeWhile Char.isAlpha
  | .unknownSymbol symbol => ∃ c ∈ ['^', '&', '|'], symbol = String.ofList [c] ∧
      text[offset]? = some c
  | _ => False

/-- Offsets may be counted from further in front. -/
theorem Cause.Quotes.behind {cause : Cause} {text : List Char} {begin offset : Nat}
    (quotes : cause.Quotes text begin offset) (passed : List Char) :
    cause.Quotes (passed ++ text) (passed.length + begin) (passed.length + offset) := by
  have entry : ∀ index, (passed ++ text)[passed.length + index]? = text[index]? := by
    intro index
    rw [List.getElem?_append_right (Nat.le_add_right _ _), Nat.add_sub_cancel_left]
  cases cause with
  | unexpectedEnd | unexpectedToken | expectedExpression | nestingTooDeep => exact quotes.elim
  | _ =>
      simpa only [Quotes, Nat.add_assoc, entry, List.drop_length_add_append, List.length_append,
        Nat.add_left_cancel_iff] using quotes

/-! ## Scans -/

namespace Lexeme

/-- A fault of the scan quotes the text that was scanned. -/
def Scan.Quotes (scan : Scan) (text : List Char) : Prop :=
  ∀ cause ahead, scan.reading = .fault cause ahead → cause.Quotes text 0 ahead

variable {text rest : List Char}

theorem Scan.token_quotes {taken value : List Char} {kind : TokenKind} :
    Scan.Quotes ⟨taken, rest, .token kind value⟩ text := by
  rintro _ _ ⟨⟩

theorem Scan.fault_quotes {taken : List Char} {cause : Cause} {ahead : Nat}
    (quotes : cause.Quotes text 0 ahead) :
    Scan.Quotes ⟨taken, rest, .fault cause ahead⟩ text := by
  rintro _ _ ⟨⟩
  exact quotes

/-- A percent sign without a name behind it is an operator, so it is never taken for a sigil. -/
theorem variableName_quotes (kind : VariableKind)
    (sigil : kind.sigil = '%' → isPercentOperator text = false) :
    (variableName kind text).Quotes (kind.sigil :: text) := by
  unfold variableName
  split
  next nameless =>
    have refused : ∀ c ∈ text.head?, isNamePart c = false := by
      have left := @List.takeWhile_append_dropWhile _ isNamePart text
      rw [nameless, List.nil_append] at left
      rw [← left]
      exact rejected_of_dropWhile
    refine Scan.fault_quotes ⟨kind.sigil, ?_, rfl, rfl, ?_⟩
    · cases kind with
      | scalar | array => decide
      | hash =>
          have operator : isPercentOperator text = true := by
            cases text with
            | nil => rfl
            | cons character text => simp [isPercentOperator, refused character rfl]
          cases operator.symm.trans (sigil rfl)
    · simpa [List.head?_eq_getElem?] using refused
  next => exact Scan.token_quotes

theorem vocabularyWord_quotes {accepted : Char → Bool} {vocabulary : Vocabulary}
    {unknown : String → Cause} {character : Char} (accepts : accepted character = true)
    (quotes : ∀ word, word ≠ "" → word.toList = (character :: text).takeWhile accepted →
      (unknown word).Quotes (character :: text) 0 0) :
    (vocabularyWord accepted vocabulary unknown (character :: text)).Quotes
      (character :: text) := by
  unfold vocabularyWord
  dsimp only
  split
  next => exact Scan.token_quotes
  next =>
    apply Scan.fault_quotes
    apply quotes
    · rw [ne_eq, String.ofList_eq_empty_iff, List.takeWhile_cons_of_pos accepts]
      exact List.cons_ne_nil _ _
    · exact String.toList_ofList

theorem symbol_quotes {character : Char} (part : isSymbolPart character = true) :
    (symbol (character :: text)).Quotes (character :: text) := by
  unfold symbol
  split
  next => exact Scan.token_quotes
  next unknown =>
    refine Scan.fault_quotes ⟨character, ?_, rfl, rfl⟩
    obtain ⟨kind, known⟩ | other := kindOf?_or_mem part
    -- A run that begins with a symbol would have been given back as far as that symbol.
    · have front : [character] <+: (character :: text).takeWhile isSymbolPart := by
        rw [List.takeWhile_cons_of_pos part]
        exact List.prefix_append [character] _
      rw [← ((character :: text).takeWhile isSymbolPart).reverse_reverse] at front
      cases unknown.symm.trans (giveBack_eq_some_iff.mpr ⟨front, known⟩)
    · exact other

/-- A number that begins with a point or a digit takes that. -/
theorem Number.run_taken_ne_nil {character : Char}
    (starts : (character = '.' || character.isDigit) = true) :
    (Number.run .nothing (character :: text)).taken ≠ [] := by
  unfold Number.run
  split
  next stuck =>
    simp only [Number.State.step] at stuck
    grind
  next => exact List.cons_ne_nil _ _

theorem number_quotes {character : Char}
    (starts : (character = '.' || character.isDigit) = true) :
    (number (character :: text)).Quotes (character :: text) := by
  unfold number
  dsimp only
  split
  next => exact Scan.token_quotes
  next =>
    refine Scan.fault_quotes ⟨?_, ?_⟩
    · rw [ne_eq, String.ofList_eq_empty_iff]
      exact Number.run_taken_ne_nil starts
    · rw [String.toList_ofList]
      exact ⟨_, Number.run_split .nothing (character :: text)⟩

/-! ### Quoted literals -/

/-- The text goes wrong at a backslash, and behind it stands what is to be blamed. -/
def WrongAt (sequence : List Char) : List Char → Prop
  | [] => False
  | character :: text => character = '\\' ∧ sequence ≠ [] ∧ sequence <+: text

theorem Piece.escape_wrong {letter : Char} {sequence taken : List Char}
    (wrong : Piece.escape letter text = .wrong sequence taken rest) :
    sequence ≠ [] ∧ sequence <+: letter :: text := by
  unfold Piece.escape at wrong
  split at wrong
  next => cases wrong
  next =>
    split at wrong
    next =>
      split at wrong
      next =>
        cases wrong
        exact ⟨List.cons_ne_nil _ _, List.prefix_append [letter] text⟩
      next => cases wrong
    next =>
      split at wrong
      next count _ =>
        dsimp only at wrong
        split at wrong
        next => cases wrong
        next =>
          cases wrong
          refine ⟨List.cons_ne_nil _ _, (List.prefix_cons_inj letter).mpr ?_⟩
          exact (List.takeWhile_prefix isHexDigit).trans (List.take_prefix count text)
      next =>
        split at wrong
        next => cases wrong
        next =>
          cases wrong
          exact ⟨List.cons_ne_nil _ _, List.prefix_append [letter] text⟩

theorem Piece.first_wrong {sequence taken : List Char}
    (wrong : Piece.first text = .wrong sequence taken rest) : WrongAt sequence text := by
  unfold Piece.first at wrong
  split at wrong
  next => cases wrong
  next =>
    split at wrong
    next backslash =>
      split at wrong
      next => cases wrong
      next => exact ⟨backslash, Piece.escape_wrong wrong⟩
    next => cases wrong

theorem Body.read_wrongAt {quote : Char} {front sequence taken : List Char}
    (wrong : Body.read quote text = .wrong front sequence taken rest) :
    ∃ behind, text = front ++ behind ∧ WrongAt sequence behind := by
  fun_induction Body.read quote text generalizing front with
  | case1 => cases wrong
  | case2 text _ unit behind first ih =>
      cases inner : Body.read quote behind with
      | closed | ended =>
          rw [inner] at wrong
          cases wrong
      | wrong =>
          rw [inner] at wrong
          cases wrong
          obtain ⟨later, split, stands⟩ := ih inner
          refine ⟨later, ?_, stands⟩
          rw [List.append_assoc, ← split, Piece.append_of_unit first]
  | case3 text _ _ _ _ first =>
      cases wrong
      exact ⟨text, rfl, Piece.first_wrong first⟩
  | case4 => cases wrong

theorem wrongEscape_quotes (before : List Char) {sequence taken behind : List Char}
    (wrong : WrongAt sequence behind) :
    (wrongEscape before sequence taken rest).Quotes (before ++ behind) := by
  cases behind with
  | nil => exact wrong.elim
  | cons character behind =>
      obtain ⟨rfl, nonempty, front⟩ := wrong
      refine Scan.fault_quotes ⟨by simp, ?_, ?_⟩
      · rwa [ne_eq, String.ofList_eq_empty_iff]
      · rw [String.toList_ofList, List.drop_length_add_append]
        exact front

theorem unterminated_quotes (quote : Char) (text : List Char) :
    (unterminated quote (quote :: text)).Quotes (quote :: text) :=
  Scan.fault_quotes ⟨rfl, rfl⟩

theorem stringLiteral_quotes (text : List Char) : (stringLiteral text).Quotes ('"' :: text) := by
  have whole := Body.whole_read '"' text
  unfold stringLiteral
  split
  next => exact Scan.token_quotes
  next wrong =>
    obtain ⟨behind, split, stands⟩ := Body.read_wrongAt wrong
    rw [split]
    exact wrongEscape_quotes _ stands
  next taken ended =>
    rw [ended] at whole
    rw [← whole]
    exact unterminated_quotes '"' taken

theorem characterLiteral_quotes (text : List Char) :
    (characterLiteral text).Quotes ('\'' :: text) := by
  have parts := Piece.parts_first text
  unfold characterLiteral
  split
  next => exact Scan.fault_quotes ⟨rfl, List.nil_prefix⟩
  next =>
    split
    next taken ended =>
      rw [ended, Piece.parts, List.append_nil] at parts
      rw [← parts]
      exact unterminated_quotes '\'' taken
    next wrong => exact wrongEscape_quotes ['\''] (Piece.first_wrong wrong)
    next value unit =>
      rw [unit, Piece.parts, List.append_nil] at parts
      rw [← parts]
      exact unterminated_quotes '\'' value
    next value next rest unit =>
      split
      next => exact Scan.token_quotes
      next =>
        rw [unit] at parts
        refine Scan.fault_quotes ⟨rfl, ?_⟩
        rw [String.toList_ofList, ← parts]
        exact ⟨rest, by simp [Piece.parts]⟩

/-! ### Lexemes -/

/-- Whatever cannot be read is quoted. -/
theorem scan_quotes {character : Char} : (scan (character :: text)).Quotes (character :: text) := by
  rw [scan]
  split
  next operator =>
    rw [Bool.and_eq_true, decide_eq_true_eq] at operator
    exact symbol_quotes (by rw [operator.1]; decide)
  next name =>
    split
    next kind sigil =>
      rw [VariableKind.ofSigil?_eq_some_iff] at sigil
      subst sigil
      refine variableName_quotes kind fun percent => ?_
      simpa [percent] using name
    next =>
      repeat' split
      · next starts => exact number_quotes starts
      · next quote => exact quote ▸ stringLiteral_quotes text
      · next quote => exact quote ▸ characterLiteral_quotes text
      · next part => exact symbol_quotes part
      · next upper =>
          have letter : character.isAlpha = true := Bool.or_eq_true_iff.mpr (.inl upper)
          exact vocabularyWord_quotes letter fun _ nonempty run => ⟨nonempty, run⟩
      · next lower => exact vocabularyWord_quotes lower fun _ nonempty run => ⟨nonempty, run⟩
      · exact Scan.fault_quotes rfl

/-- Something begins at `begin`, and only white space stands between `last` and there. -/
structure BeginsAt (text : List Char) (last begin : Nat) : Prop where
  onward : last ≤ begin
  gap : ∀ c ∈ (text.take begin).drop last, isSpace c = true
  visible : ∃ c ∈ text[begin]?, isSpace c = false

end Lexeme

/-! ## Cursors -/

namespace Cursor

variable {source : String} {file : Option String} {cursor last after : Cursor}
  {tokens : List Token} {diagnostic : Diagnostic}

theorem exists_skipSpace (more : cursor.hasNext = true) :
    ∃ character text, cursor.skipSpace.rest = character :: text ∧
      Lexeme.isSpace character = false := by
  cases left : cursor.skipSpace.rest with
  | nil =>
      have spaces := List.dropWhile_eq_nil_iff.mp left
      rw [hasNext, List.any_eq_true] at more
      obtain ⟨character, member, visible⟩ := more
      rw [spaces character member] at visible
      cases visible
  | cons character text =>
      exact ⟨character, text, rfl, cursor.head_skipSpace character (by rw [left]; rfl)⟩

theorem scan_skipSpace_quotes (more : cursor.hasNext = true) :
    (Lexeme.scan cursor.skipSpace.rest).Quotes cursor.skipSpace.rest := by
  obtain ⟨character, text, left, _⟩ := exists_skipSpace more
  rw [left]
  exact Lexeme.scan_quotes

/-- A fault that a cursor meets is one that a scan has found behind the gap. -/
theorem exists_reading (read : cursor.nextToken = (.error diagnostic, after)) :
    ∃ ahead, (Lexeme.scan cursor.skipSpace.rest).reading = .fault diagnostic.cause ahead ∧
      diagnostic.position = (cursor.skipSpace.place.past
        ((Lexeme.scan cursor.skipSpace.rest).taken.take ahead)).inFile cursor.file := by
  simp only [nextToken, Prod.mk.injEq, report] at read
  obtain ⟨outcome, _⟩ := read
  split at outcome
  next => cases outcome
  next cause ahead reading =>
    cases outcome
    exact ⟨ahead, reading, rfl⟩

namespace StandsIn

theorem toNat_offset (stands : cursor.StandsIn source file)
    (short : source.length < UInt32.size - 1) :
    cursor.position.offset.toNat = cursor.place.offset := by
  have whole := stands.offset_add
  exact UInt32.toNat_ofNat_of_lt' (by omega)

/-- What a cursor is going to read begins behind the gap that it stands in front of. -/
theorem beginsAt (stands : cursor.StandsIn source file) (more : cursor.hasNext = true) :
    Lexeme.BeginsAt source.toList cursor.place.offset cursor.skipSpace.place.offset := by
  have start := stands.rest_eq
  have behind := stands.skipSpace.rest_eq
  obtain ⟨character, text, left, visible⟩ := exists_skipSpace more
  have moved : cursor.skipSpace.place.offset =
      cursor.place.offset + (cursor.rest.takeWhile Lexeme.isSpace).length :=
    Place.offset_past _ _
  refine ⟨by omega, ?_, character, ?_, visible⟩
  · intro c member
    rw [List.drop_take, ← start, moved, Nat.add_sub_cancel_left,
      ← List.prefix_iff_eq_take.mp (List.takeWhile_prefix _)] at member
    exact List.mem_takeWhile_imp member
  · rw [← List.head?_drop, ← behind, left]
    rfl

/-- The fault that a cursor meets quotes the source. -/
theorem fault_quotes (stands : cursor.StandsIn source file)
    (short : source.length < UInt32.size - 1) (more : cursor.hasNext = true)
    (read : cursor.nextToken = (.error diagnostic, after)) :
    diagnostic.cause.Quotes source.toList cursor.skipSpace.place.offset
      diagnostic.position.offset.toNat := by
  obtain ⟨ahead, reading, position⟩ := exists_reading read
  have scanned := Lexeme.scan_of cursor.skipSpace.rest
  have within := scanned.within _ ahead reading
  have taken := congrArg List.length scanned.split
  have whole := stands.skipSpace.offset_add
  rw [List.length_append] at taken
  have quotes := (scan_skipSpace_quotes more _ ahead reading).behind
    (source.toList.take cursor.skipSpace.place.offset)
  have passed : (source.toList.take cursor.skipSpace.place.offset).length =
      cursor.skipSpace.place.offset := by
    rw [List.length_take, String.length_toList]
    omega
  rw [stands.skipSpace.rest_eq, List.take_append_drop, passed, Nat.add_zero] at quotes
  have offset : diagnostic.position.offset.toNat = cursor.skipSpace.place.offset + ahead := by
    rw [position, Place.inFile, Place.offset_past, List.length_take, Nat.min_eq_left within]
    exact UInt32.toNat_ofNat_of_lt' (by omega)
  rwa [offset]

end StandsIn

/-- The fault that breaks a stream is met behind its tokens. -/
theorem exists_fault (broken : cursor.stream.ending = .error diagnostic) :
    ∃ last after, Passes cursor cursor.stream.tokens last ∧ last.hasNext = true ∧
      last.nextToken = (.error diagnostic, after) := by
  induction cursor using stream_induction with
  | ended cursor nothing =>
      rw [stream_of_end nothing] at broken
      cases broken
  | fault cursor after found more read =>
      rw [stream_of_fault more read] at broken ⊢
      cases broken
      exact ⟨cursor, after, .done, more, read⟩
  | token cursor after token more read ih =>
      rw [stream_of_token more read] at broken ⊢
      obtain ⟨last, reached, passes, met⟩ := ih broken
      exact ⟨last, reached, .token read passes, met⟩

namespace Passes

theorem standsIn (passes : Passes cursor tokens last) (stands : cursor.StandsIn source file) :
    last.StandsIn source file := by
  obtain ⟨text, rest, place, named⟩ := passes.exists_text
  have moved := stands.move rest
  rwa [← place, ← named] at moved

/-- A source is cut into tokens if they are passed and nothing is left. -/
theorem tokenize_eq_ok (passes : Passes (ofSource source file) tokens last)
    (finished : last.rest = []) : tokenize source file = .ok tokens := by
  have ended : last.stream = .ended last.position := by
    apply stream_of_end
    simp [hasNext, finished]
  obtain ⟨stream, ending⟩ := passes.stream_eq
  rw [tokenize, drain_eq_items, TokenStream.gather_items, stream, ending, ended]
  exact congrArg Except.ok (List.append_nil tokens)

/-- The offset behind the last token that was passed. -/
theorem offset_eq (passes : Passes (ofSource source file) tokens last)
    (short : source.length < UInt32.size - 1) :
    (tokens.getLast?.map fun token => token.span.stop.offset.toNat).getD 0 =
      last.place.offset := by
  have stands := passes.standsIn (standsIn_ofSource source file)
  by_cases nothing : tokens = []
  · subst nothing
    cases passes
    rfl
  · have stop := congrArg (Option.map fun position => position.offset.toNat)
      (passes.stop_eq nothing)
    rw [Option.map_map] at stop
    exact (congrArg (Option.getD · 0) stop).trans (stands.toNat_offset short)

end Passes

end Cursor

/-! ## Sources -/

/-- The fault comes behind these tokens and quotes the source.  What cannot be read begins at
`begin`. -/
structure FaultBehind (source : String) (file : Option String) (fault : Diagnostic)
    (tokens : List Token) (begin : Nat) : Prop where
  yielded : (Cursor.ofSource source file).drain.1 = tokens.map .ok ++ [.error fault]
  begins : Lexeme.BeginsAt source.toList
    ((tokens.getLast?.map fun token => token.span.stop.offset.toNat).getD 0) begin
  quotes : fault.cause.Quotes source.toList begin fault.position.offset.toNat
  intact : ∀ before token later, tokens = before ++ token :: later →
    tokenize (String.ofList (source.toList.take token.span.stop.offset.toNat)) file =
      .ok (before ++ [token])

/-- A lexical fault quotes the source and leaves the tokens in front of it intact. -/
theorem tokenize_quotes {source : String} {file : Option String} {fault : Diagnostic}
    (short : source.length < UInt32.size - 1) (failed : tokenize source file = .error fault) :
    ∃ tokens begin, FaultBehind source file fault tokens begin := by
  have broken := tokenize_eq_error_iff.mp failed
  obtain ⟨last, after, passes, more, read⟩ := Cursor.exists_fault broken
  have stands := passes.standsIn (Cursor.standsIn_ofSource source file)
  refine ⟨(Cursor.ofSource source file).stream.tokens, last.skipSpace.place.offset, ?_, ?_,
    stands.fault_quotes short more read, ?_⟩
  · rw [Cursor.drain_eq_items, TokenStream.items, broken]
  · rw [passes.offset_eq short]
    exact stands.beginsAt more
  · intro before token later split
    rw [List.append_cons] at split
    obtain ⟨behind, front, _⟩ := Cursor.exists_passes split
    have stop : token.span.stop = behind.position := by
      simpa using front.stop_eq (by simp)
    rw [stop]
    exact (front.alone short).tokenize_eq_ok rfl

/-- A wrong escape inside a string, behind a literal with an escape of its own. -/
theorem tokenize_quotes_escape :
    ∃ fault tokens begin, "$x =\n '\\x41' \"b\\u12g\"".length < UInt32.size - 1 ∧
      tokenize "$x =\n '\\x41' \"b\\u12g\"" none = .error fault ∧
      fault = ⟨.invalidEscape "u12", ⟨15, 2, 11, "shell"⟩⟩ ∧
      FaultBehind "$x =\n '\\x41' \"b\\u12g\"" none fault tokens begin := by
  have failed : tokenize "$x =\n '\\x41' \"b\\u12g\"" none =
      .error ⟨.invalidEscape "u12", ⟨15, 2, 11, "shell"⟩⟩ := by
    decide +kernel
  obtain ⟨tokens, begin, behind⟩ := tokenize_quotes (by decide) failed
  exact ⟨_, tokens, begin, by decide, failed, rfl, behind⟩

end Scriptlet
