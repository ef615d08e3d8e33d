import Scriptlet.Proofs.Lexing.Append

/-!
# White space between tokens

White space is a seam at which a source may be taken apart: what stands before it and what stands
behind it are cut into tokens independently (`tokenize_across_space`).  The other way round, any
white space may be put between the spellings of tokens without a change in what the tokens say
(`tokenize_spellOut`), because a token can be told from its spelling alone (`Token.Spells`).
-/

namespace Scriptlet

/-- White space separates: behind a source that can be cut into tokens, and white space, a second
source gives what it gives on its own, with its positions moved. -/
theorem tokenize_across_space {front space back : String} {file : Option String}
    {tokens : List Token} (short : (front ++ space ++ back).length < UInt32.size - 1)
    (blank : ∀ c ∈ space.toList, c ∈ [' ', '\t', '\r', '\n', '\x0B', '\x0C'])
    (nonempty : space ≠ "") (lexed : tokenize front file = .ok tokens) :
    tokenize (front ++ space ++ back) file =
      match tokenize back file with
      | .ok others =>
          .ok (tokens ++ others.map (Token.relocate (Position.behind (front ++ space).toList)))
      | .error diagnostic =>
          .error (diagnostic.relocate (Position.behind (front ++ space).toList)) := by
  refine tokenize_append short lexed ?_ (.inl nonempty)
  intro c member
  simpa [Lexeme.isSpace, or_assoc] using blank c member

/-- A percent sign that stays an operator before a line feed, with a source behind it that can be
cut into tokens, and with one that has a wrong escape on its second line. -/
theorem tokenize_across_space_percent :
    ∃ tokens, tokenize "$x = 07.e1 %" none = .ok tokens ∧
      tokenize ("$x = 07.e1 %" ++ "\n\t" ++ "%h\n;") none =
        .ok (tokens ++
          [⟨.identifier .hash .everyone, "%h", ⟨⟨14, 2, 2, "shell"⟩, ⟨16, 2, 4, "shell"⟩⟩⟩,
            ⟨.semicolon, ";", ⟨⟨17, 3, 1, "shell"⟩, ⟨18, 3, 2, "shell"⟩⟩⟩]) ∧
      tokenize ("$x = 07.e1 %" ++ "\n\t" ++ "$y\n\"ab\\q\"") none =
        .error ⟨.invalidEscape "q", ⟨20, 3, 4, "shell"⟩⟩ := by
  have lexes : (tokenize "$x = 07.e1 %" none).isOk = true := by decide +kernel
  have second : tokenize "%h\n;" none = .ok
      [⟨.identifier .hash .everyone, "%h", ⟨⟨0, 1, 1, "shell"⟩, ⟨2, 1, 3, "shell"⟩⟩⟩,
        ⟨.semicolon, ";", ⟨⟨3, 2, 1, "shell"⟩, ⟨4, 2, 2, "shell"⟩⟩⟩] := by decide +kernel
  have wrong : tokenize "$y\n\"ab\\q\"" none =
      .error ⟨.invalidEscape "q", ⟨6, 2, 4, "shell"⟩⟩ := by decide +kernel
  cases lexed : tokenize "$x = 07.e1 %" none with
  | error diagnostic =>
      rw [lexed] at lexes
      cases lexes
  | ok tokens =>
      refine ⟨tokens, rfl, ?_, ?_⟩
      · rw [tokenize_across_space (by decide) (by simp) (by decide) lexed, second]
        rfl
      · rw [tokenize_across_space (by decide) (by simp) (by decide) lexed, wrong]
        rfl

/-! ## Tokens and their spellings -/

/-- The token is what its spelling is read as. -/
def Token.Spells (token : Token) : Prop :=
  Lexeme.scan token.sourceText.toList =
    ⟨token.sourceText.toList, [], .token token.kind token.value.toList⟩

/-- Tokens with one spelling say the same. -/
theorem Token.Spells.content_eq {token other : Token} (spells : token.Spells)
    (others : other.Spells) (same : token.sourceText = other.sourceText) :
    token.content = other.content := by
  rw [Token.Spells, same, others, Lexeme.Scan.mk.injEq] at spells
  rcases Lexeme.Reading.token.inj spells.2.2 with ⟨kind, value⟩
  rw [content, content, kind, String.toList_inj.mp value]

/-- No lexeme begins with white space. -/
theorem Lexeme.scan_of_isSpace {character : Char} (space : isSpace character = true)
    (text : List Char) :
    (scan (character :: text)).reading = .fault (.unrecognisedCharacter character) 0 := by
  simp only [isSpace, Bool.or_eq_true, beq_iff_eq, or_assoc] at space
  rcases space with rfl | rfl | rfl | rfl | rfl | rfl <;> rfl

namespace Cursor

variable {cursor after : Cursor} {token : Token}

/-- A token that is cut out of a source is what its spelling is read as, whatever stood next to
it. -/
theorem nextToken_spells (read : cursor.nextToken = (.ok token, after)) : token.Spells := by
  simp only [nextToken, Prod.mk.injEq, report] at read
  rcases read with ⟨outcome, _⟩
  split at outcome
  next kind value reading =>
    cases outcome
    have taken := (Lexeme.scan_spelled _).spelling kind value reading
    have split := (Lexeme.scan_of cursor.skipSpace.rest).split
    have cut := Lexeme.scan_confined (Lexeme.scan cursor.skipSpace.rest).taken
      (Lexeme.scan cursor.skipSpace.rest).rest kind value
    rw [split] at cut
    rcases cut reading (Nat.le_refl _) with ⟨readingEq, takenEq⟩
    have whole := (Lexeme.scan_of (Lexeme.scan cursor.skipSpace.rest).taken).split
    rw [takenEq] at whole
    have nothing := List.append_right_eq_self.mp whole
    rw [Token.Spells, Token.toList_sourceText, String.toList_ofList, ← taken]
    exact (Lexeme.Scan.mk.injEq ..).mpr ⟨takenEq, nothing, readingEq⟩
  next => cases outcome

theorem stream_spells (cursor : Cursor) : ∀ token ∈ cursor.stream.tokens, token.Spells := by
  induction cursor using stream_induction with
  | ended cursor nothing =>
      rw [stream_of_end nothing]
      exact List.forall_mem_nil _
  | fault cursor after diagnostic more read =>
      rw [stream_of_fault more read]
      exact List.forall_mem_nil _
  | token cursor after token more read ih =>
      rw [stream_of_token more read]
      exact List.forall_mem_cons.mpr ⟨nextToken_spells read, ih⟩

/-- The spelling of a token is read as the token, in front of text that severs it. -/
theorem nextToken_spelled (spells : token.Spells) {more : List Char}
    (severs : Lexeme.Severs token.kind more) (place : Place) (file : String) :
    ∃ again, again.content = token.content ∧
      (Cursor.mk (token.sourceText.toList ++ more) place file).nextToken =
        (.ok again, ⟨more, place.past token.sourceText.toList, file⟩) := by
  have start : (Cursor.mk token.sourceText.toList place file).skipSpace =
      ⟨token.sourceText.toList, place, file⟩ := by
    cases spelled : token.sourceText.toList with
    | nil => rfl
    | cons character text =>
        have plain : ¬ Lexeme.isSpace character = true := by
          intro space
          have fault := Lexeme.scan_of_isSpace space text
          rw [Token.Spells, spelled] at spells
          rw [spells] at fault
          cases fault
        simp [skipSpace, plain]
  have read : (Cursor.mk token.sourceText.toList place file).nextToken =
      (.ok ⟨token.kind, token.value, ⟨place.inFile file,
        (place.past token.sourceText.toList).inFile file⟩⟩,
        ⟨[], place.past token.sourceText.toList, file⟩) := by
    rw [Token.Spells] at spells
    simp only [nextToken, start, spells, report, Cursor.past, String.ofList_toList]
    rfl
  have extended := nextToken_followedBy read fun _ => severs
  refine ⟨_, ?_, extended⟩
  rfl

end Cursor

/-! ## Spelling out -/

/-- The tokens as text, with `lead` in front of them and one of the gaps behind each. -/
def spellOut (lead : List Char) (tokens : List Token) (gaps : List (List Char)) : List Char :=
  lead ++ (List.zipWith (fun token gap => token.sourceText.toList ++ gap) tokens gaps).flatten

/-- What is spelled out behind white space begins with it. -/
theorem spellOut_head {lead : List Char} (blank : ∀ c ∈ lead, Lexeme.isSpace c = true)
    {tokens : List Token} (apart : tokens ≠ [] → lead ≠ []) {gaps : List (List Char)} :
    ∀ c ∈ (spellOut lead tokens gaps).head?, Lexeme.isSpace c = true := by
  intro c next
  cases lead with
  | cons first others =>
      cases next
      exact blank c (.head others)
  | nil =>
      cases tokens with
      | nil => cases next
      | cons => exact absurd rfl (apart (List.cons_ne_nil _ _))

/-- Tokens that are spelled out with white space between them are read again. -/
theorem Cursor.stream_spellOut {tokens : List Token} (spells : ∀ token ∈ tokens, token.Spells)
    {lead : List Char} {gaps : List (List Char)} (count : gaps.length = tokens.length)
    (blank : ∀ gap ∈ lead :: gaps, ∀ c ∈ gap, Lexeme.isSpace c = true)
    (apart : ∀ gap ∈ gaps.dropLast, gap ≠ []) (place : Place) (file : String) :
    (Cursor.mk (spellOut lead tokens gaps) place file).stream.tokens.map Token.content =
        tokens.map Token.content ∧
      ∃ final, (Cursor.mk (spellOut lead tokens gaps) place file).stream.ending = .ok final := by
  induction tokens generalizing lead gaps place with
  | nil =>
      have nothing : (Cursor.mk (spellOut lead [] gaps) place file).hasNext = false := by
        simpa [spellOut, Cursor.hasNext] using blank lead (.head _)
      rw [stream_of_end nothing]
      exact ⟨rfl, _, rfl⟩
  | cons token tokens ih =>
      cases gaps with
      | nil => cases count
      | cons gap gaps =>
          rcases List.forall_mem_cons.mp blank with ⟨leadBlank, gapsBlank⟩
          rcases List.forall_mem_cons.mp spells with ⟨own, others⟩
          have text : spellOut lead (token :: tokens) (gap :: gaps) =
              lead ++ (token.sourceText.toList ++ spellOut gap tokens gaps) := by
            simp [spellOut]
          -- The gap may be empty only if no token follows it, and then nothing does.
          have inner : tokens ≠ [] → (gap :: gaps).dropLast = gap :: gaps.dropLast := by
            intro nonempty
            cases gaps with
            | nil => exact absurd (List.length_eq_zero_iff.mp (Nat.succ.inj count).symm) nonempty
            | cons => rfl
          have severs : Lexeme.Severs token.kind (spellOut gap tokens gaps) := by
            refine .inr fun c next => Lexeme.mem_separators_of_isSpace ?_
            refine spellOut_head (List.forall_mem_cons.mp gapsBlank).1 (fun nonempty => ?_) c next
            exact apart gap (inner nonempty ▸ .head _)
          obtain ⟨again, same, read⟩ := Cursor.nextToken_spelled own severs (place.past lead) file
          rw [← nextToken_gap leadBlank, ← text] at read
          have onward : ∀ gap ∈ gaps.dropLast, gap ≠ [] := by
            intro other member
            cases tokens with
            | nil =>
                rw [List.length_eq_zero_iff.mp (Nat.succ.inj count)] at member
                cases member
            | cons => exact apart other (inner (List.cons_ne_nil _ _) ▸ .tail _ member)
          have further := ih others (Nat.succ.inj count) gapsBlank onward
            ((place.past lead).past token.sourceText.toList)
          rw [stream_of_token (hasNext_of_nextToken read) read]
          exact ⟨List.cons_eq_cons.mpr ⟨same, further.1⟩, further.2⟩

/-- Spelling out the tokens of a source with white space between them, and cutting the result into
tokens, changes nothing that they say; and whatever source it comes from, a token with the same
spelling says the same. -/
theorem tokenize_spellOut {source : String} {file : Option String} {tokens : List Token}
    (lexed : tokenize source file = .ok tokens) :
    (∀ lead gaps other, gaps.length = tokens.length →
      (∀ gap ∈ lead :: gaps, ∀ c ∈ gap, c ∈ [' ', '\t', '\r', '\n', '\x0B', '\x0C']) →
      (∀ gap ∈ gaps.dropLast, gap ≠ []) →
      ∃ again, tokenize (String.ofList (spellOut lead tokens gaps)) other = .ok again ∧
        again.map Token.content = tokens.map Token.content) ∧
      ∀ source' file' tokens', tokenize source' file' = .ok tokens' →
        ∀ token ∈ tokens, ∀ token' ∈ tokens', token.sourceText = token'.sourceText →
          token.content = token'.content := by
  have own : ∀ token ∈ tokens, token.Spells := by
    rcases Cursor.stream_ofSource lexed with ⟨rfl, _⟩
    exact Cursor.stream_spells _
  constructor
  · intro lead gaps other count blank apart
    have spaces : ∀ gap ∈ lead :: gaps, ∀ c ∈ gap, Lexeme.isSpace c = true := by
      intro gap member c inGap
      simpa [Lexeme.isSpace, or_assoc] using blank gap member c inGap
    rcases Cursor.stream_spellOut own count spaces apart .start (other.getD Cursor.unnamed) with
      ⟨same, final, ended⟩
    refine ⟨_, ?_, same⟩
    rw [tokenize, Cursor.drain_eq_items, TokenStream.gather_items, Cursor.ofSource,
      String.toList_ofList, ended]
    rfl
  · intro source' file' tokens' lexed' token member token' member' same
    rcases Cursor.stream_ofSource lexed' with ⟨rfl, _⟩
    exact (own token member).content_eq (Cursor.stream_spells _ token' member') same

/-- Tokens that stand side by side, set apart by the kinds of white space there are, and met again
in another source. -/
theorem tokenize_spellOut_apart :
    ∃ tokens others, tokenize "1l%$_a=!.5\"\\x4\"" none = .ok tokens ∧
      tokenize "%h=.5 %1l" none = .ok others ∧
      (∃ again,
        tokenize (String.ofList (spellOut [] tokens
          [[' '], ['\n'], ['\t'], ['\r', '\n'], ['\x0B'], ['\x0C'], []])) (some "b.sg") =
            .ok again ∧
        again.map Token.content = tokens.map Token.content) ∧
      ∀ token ∈ tokens, ∀ other ∈ others, token.sourceText = other.sourceText →
        token.content = other.content := by
  have lexes : (tokenize "1l%$_a=!.5\"\\x4\"" none).toOption.any (·.length = 7) = true := by
    decide +kernel
  have othersLex : (tokenize "%h=.5 %1l" none).isOk = true := by decide +kernel
  cases lexed : tokenize "1l%$_a=!.5\"\\x4\"" none with
  | error diagnostic =>
      rw [lexed] at lexes
      cases lexes
  | ok tokens =>
      cases again : tokenize "%h=.5 %1l" none with
      | error diagnostic =>
          rw [again] at othersLex
          cases othersLex
      | ok others =>
          rw [lexed] at lexes
          rcases tokenize_spellOut lexed with ⟨respaced, told⟩
          refine ⟨tokens, others, rfl, rfl, respaced _ _ _ ?_ ?_ ?_, told _ _ _ again⟩
          · exact (of_decide_eq_true lexes).symm
          · simp
          · decide

end Scriptlet
