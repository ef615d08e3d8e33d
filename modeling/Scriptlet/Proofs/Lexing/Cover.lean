import Scriptlet.Proofs.Lexing.Stream

/-!
# Tokens cover the source

Between two tokens stands nothing but white space, and every token stands where its span says.
`Covers` says so from one token to the next, for a text that begins at any place; the statements
about a whole source are read off it by induction over the tokens.
-/

namespace Scriptlet

/-- The characters of a source that a span marks off. -/
def Span.slice (source : String) (span : Span) : List Char :=
  (source.toList.take span.stop.offset.toNat).drop span.start.offset.toNat

/-- The text of a place onward consists of the tokens, with white space around them, and every token
spans its own spelling. -/
inductive Covers (file : String) : Place → List Char → List Token → Prop where
  | blank {place : Place} {gap : List Char} (spaces : ∀ c ∈ gap, Lexeme.isSpace c = true) :
      Covers file place gap []
  | token {place : Place} {gap rest : List Char} {token : Token} {tokens : List Token}
      (spaces : ∀ c ∈ gap, Lexeme.isSpace c = true)
      (nonempty : token.sourceText.toList ≠ [])
      (real : token.kind ≠ .endOfInput)
      (start : token.span.start = (place.past gap).inFile file)
      (stop : token.span.stop = (place.past (gap ++ token.sourceText.toList)).inFile file)
      (others : Covers file (place.past (gap ++ token.sourceText.toList)) rest tokens) :
      Covers file place (gap ++ token.sourceText.toList ++ rest) (token :: tokens)

namespace Cursor

/-- What reading a token takes: white space, and the spelling of the token. -/
theorem nextToken_takes {cursor after : Cursor} {token : Token}
    (read : cursor.nextToken = (.ok token, after)) :
    ∃ gap, (∀ c ∈ gap, Lexeme.isSpace c = true) ∧
      cursor.rest = gap ++ token.sourceText.toList ++ after.rest ∧
      token.sourceText.toList ≠ [] ∧
      token.span.start = (cursor.place.past gap).inFile cursor.file ∧
      after.place = cursor.place.past (gap ++ token.sourceText.toList) ∧
      after.file = cursor.file := by
  simp only [nextToken, Prod.mk.injEq] at read
  rcases read with ⟨outcome, rfl⟩
  have split := Lexeme.scan_of cursor.skipSpace.rest
  have spelled := Lexeme.scan_spelled cursor.skipSpace.rest
  simp only [report] at outcome
  split at outcome
  next kind value reading =>
    cases outcome
    have text : (Lexeme.scan cursor.skipSpace.rest).taken = kind.spell value :=
      spelled.spelling kind value reading
    refine ⟨cursor.rest.takeWhile Lexeme.isSpace, ?_, ?_, ?_, rfl, ?_, rfl⟩
    · intro c member
      exact List.all_eq_true.mp List.all_takeWhile c member
    · rw [Token.toList_sourceText, String.toList_ofList, ← text, List.append_assoc]
      exact (List.takeWhile_append_dropWhile.symm.trans
        (congrArg _ split.split.symm))
    · rw [Token.toList_sourceText, String.toList_ofList, ← text]
      exact split.progress kind value reading
    · rw [Token.toList_sourceText, String.toList_ofList, ← text, Place.past_append]
      rfl
  next => exact absurd outcome (by simp)

/-- The tokens of a stream that no fault ends cover the text of the cursor. -/
theorem covers_stream (cursor : Cursor) {final : Token}
    (closed : cursor.stream.ending = .ok final) :
    Covers cursor.file cursor.place cursor.rest cursor.stream.tokens := by
  induction cursor using stream_induction with
  | ended cursor nothing =>
      rw [stream_of_end nothing]
      refine .blank fun c member => ?_
      simpa [hasNext] using List.any_eq_false.mp nothing c member
  | fault cursor after diagnostic more read =>
      rw [stream_of_fault more read] at closed
      cases closed
  | token cursor after token more read ih =>
      rw [stream_of_token more read] at closed ⊢
      have others := ih closed
      rcases nextToken_takes read with ⟨gap, spaces, rest, nonempty, start, place, file⟩
      rw [file, place] at others
      rw [rest]
      refine .token spaces nonempty (nextToken_real read) start ?_ others
      rw [nextToken_stop read, position, place, file]

end Cursor

namespace Covers

variable {file : String} {place : Place} {text : List Char} {tokens : List Token}

/-- The text is the spellings of the tokens with white space before, between and after them. -/
theorem exists_gaps (covers : Covers file place text tokens) :
    ∃ lead gaps, gaps.length = tokens.length ∧
      (∀ gap ∈ lead :: gaps, ∀ c ∈ gap, Lexeme.isSpace c = true) ∧
      text = lead ++
        (List.zipWith (fun token gap => token.sourceText.toList ++ gap) tokens gaps).flatten := by
  induction covers with
  | @blank place gap spaces =>
      refine ⟨gap, [], rfl, ?_, by simp⟩
      simpa using spaces
  | @token place gap rest token tokens spaces _ _ _ _ _ ih =>
      rcases ih with ⟨lead, gaps, count, blank, rfl⟩
      refine ⟨gap, lead :: gaps, by simp [count], ?_, by simp⟩
      exact List.forall_mem_cons.mpr ⟨spaces, blank⟩

theorem nonempty_and_real (covers : Covers file place text tokens) :
    ∀ token ∈ tokens, token.sourceText.toList ≠ [] ∧ token.kind ≠ .endOfInput := by
  induction covers with
  | blank => simp
  | token _ nonempty real _ _ _ ih => exact List.forall_mem_cons.mpr ⟨⟨nonempty, real⟩, ih⟩

/-- Every token stands in the text from its first to its last offset, counted from `place`. -/
theorem exists_split (covers : Covers file place text tokens) :
    ∀ token ∈ tokens, ∃ before after, text = before ++ token.sourceText.toList ++ after ∧
      token.span.start.offset = .ofNat (place.offset + before.length) ∧
      token.span.stop.offset =
        .ofNat (place.offset + before.length + token.sourceText.toList.length) := by
  induction covers with
  | blank => simp
  | @token place gap rest token tokens _ _ _ start stop _ ih =>
      refine List.forall_mem_cons.mpr ⟨⟨gap, rest, rfl, ?_, ?_⟩, ?_⟩
      · simp [start, Place.inFile]
      · simp [stop, Place.inFile, Nat.add_assoc]
      · intro later member
        rcases ih later member with ⟨before, after, rfl, first, last⟩
        refine ⟨gap ++ token.sourceText.toList ++ before, after, by simp, ?_, ?_⟩
        · rw [first]
          simp [Nat.add_assoc]
        · rw [last]
          simp [Nat.add_assoc]

/-- Tokens follow one another, as long as the offsets can be counted. -/
theorem ordered (covers : Covers file place text tokens)
    (fits : place.offset + text.length < UInt32.size) :
    tokens.Pairwise fun token later => token.span.stop.offset ≤ later.span.start.offset := by
  induction covers with
  | blank => exact .nil
  | @token place gap rest token tokens _ _ _ _ stop others ih =>
      simp only [List.length_append] at fits
      refine List.pairwise_cons.mpr ⟨?_, ih (by simp; omega)⟩
      intro later member
      rcases others.exists_split later member with ⟨before, after, rfl, first, _⟩
      simp only [List.length_append] at fits
      rw [first, stop, UInt32.le_iff_toNat_le]
      simp only [Place.inFile, Place.offset_past, List.length_append]
      rw [UInt32.toNat_ofNat_of_lt' (by omega), UInt32.toNat_ofNat_of_lt' (by omega)]
      omega

/-- Every token of a source is the slice of the source that it spans. -/
theorem slice_eq {source : String} (covers : Covers file .start source.toList tokens)
    (fits : source.length < UInt32.size) :
    ∀ token ∈ tokens, token.span.slice source = token.sourceText.toList := by
  intro token member
  rcases covers.exists_split token member with ⟨before, after, split, first, last⟩
  have length : before.length + token.sourceText.toList.length + after.length =
      source.length := by
    rw [← String.length_toList, split, List.length_append, List.length_append]
  rw [Span.slice, first, last, split]
  simp only [Place.start, Nat.zero_add]
  rw [UInt32.toNat_ofNat_of_lt' (by omega), UInt32.toNat_ofNat_of_lt' (by omega),
    List.append_assoc, List.take_length_add_append, List.drop_left, List.take_left]

end Covers

/-- The tokens account for all of the source: it is their spellings with white space before, between
and after them, and each of them is the part of the source that it spans. -/
structure AccountsFor (source : String) (tokens : List Token) : Prop where
  spelled : ∃ lead gaps, gaps.length = tokens.length ∧
    (∀ gap ∈ lead :: gaps, ∀ c ∈ gap, c ∈ [' ', '\t', '\r', '\n', '\x0B', '\x0C']) ∧
    source.toList = lead ++
      (List.zipWith (fun token gap => token.sourceText.toList ++ gap) tokens gaps).flatten
  sliced : ∀ token ∈ tokens, token.span.slice source = token.sourceText.toList
  nonempty : ∀ token ∈ tokens, token.span.slice source ≠ []
  ordered : tokens.Pairwise fun token later => token.span.stop.offset ≤ later.span.start.offset
  real : ∀ token ∈ tokens, token.kind ≠ .endOfInput

/-- Cutting a source into tokens loses nothing, as long as its offsets can be counted. -/
theorem tokenize_accountsFor {source : String} {file : Option String} {tokens : List Token}
    (short : source.length < UInt32.size - 1) (lexed : tokenize source file = .ok tokens) :
    AccountsFor source tokens := by
  rcases Cursor.stream_ofSource lexed with ⟨rfl, ended⟩
  have covers : Covers (file.getD Cursor.unnamed) .start source.toList _ :=
    Cursor.covers_stream (Cursor.ofSource source file) ended
  have fits : source.length < UInt32.size := Nat.lt_of_lt_of_le short (Nat.sub_le _ _)
  have slices := covers.slice_eq fits
  constructor
  · rcases covers.exists_gaps with ⟨lead, gaps, count, spaces, text⟩
    refine ⟨lead, gaps, count, ?_, text⟩
    intro gap member c inGap
    simpa [Lexeme.isSpace, or_assoc] using spaces gap member c inGap
  · exact slices
  · intro token member
    rw [slices token member]
    exact (covers.nonempty_and_real token member).1
  · apply covers.ordered
    rw [String.length_toList]
    simpa [Place.start] using fits
  · intro token member
    exact (covers.nonempty_and_real token member).2

/-- A source with quotes, escapes, symbols given back and a float to be accounted for. -/
theorem tokenize_accountsFor_literals :
    ∃ tokens, tokenize "$x =\t'\\'' +-\"a\\x41\n\"; @_y=0x1.8p3f;" none = .ok tokens ∧
      AccountsFor "$x =\t'\\'' +-\"a\\x41\n\"; @_y=0x1.8p3f;" tokens := by
  have lexes :
      (tokenize "$x =\t'\\'' +-\"a\\x41\n\"; @_y=0x1.8p3f;" none).isOk = true := by
    decide +kernel
  cases lexed : tokenize "$x =\t'\\'' +-\"a\\x41\n\"; @_y=0x1.8p3f;" none with
  | error diagnostic =>
      rw [lexed] at lexes
      cases lexes
  | ok tokens => exact ⟨tokens, rfl, tokenize_accountsFor (by decide) lexed⟩

end Scriptlet
