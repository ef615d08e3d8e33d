import Scriptlet.Proofs.Lexing.Coordinates
import Scriptlet.Proofs.Lexing.Extend

/-!
# One source behind another

Two sources written one behind the other give the tokens of the first and then those of the second,
with all positions of the second moved behind the first (`Cursor.stream_append`).  All that has to
be seen to is the seam: there must be white space at it, or the last token of the first source must
end by itself.
-/

namespace Scriptlet

/-! ## Moving positions -/

/-- What a position of a source becomes if a text is put in front of the source.  Only columns of
the first line move. -/
def Position.behind (text : List Char) (position : Position) : Position where
  offset := .ofNat text.length + position.offset
  line := .ofNat (text.count '\n') + position.line
  column :=
    if position.line = 1 then
      .ofNat (text.reverse.takeWhile (· ≠ '\n')).length + position.column
    else
      position.column
  file := position.file

/-- Places that begin behind a text are reported as positions behind it, as long as lines can be
counted. -/
theorem Place.inFile_shift (text : List Char) {place : Place} (counted : place.Counted)
    (fits : place.line < UInt32.size) (file : String) :
    ((start.past text).shift place).inFile file = (place.inFile file).behind text := by
  have sum : ∀ base count : Nat, 1 ≤ count →
      UInt32.ofNat (1 + base + (count - 1)) = UInt32.ofNat base + UInt32.ofNat count := by
    intro base count positive
    rw [← UInt32.ofNat_add]
    congr 1
    omega
  have firstLine : UInt32.ofNat place.line = 1 ↔ place.line = 1 := by
    rw [← UInt32.toNat_inj, UInt32.toNat_ofNat_of_lt' fits]
    rfl
  rw [past_start]
  simp only [Position.behind, inFile, shift, ofOffset, List.take_length, firstLine]
  rw [UInt32.ofNat_add, sum _ _ counted.line]
  split
  next => rw [sum _ _ counted.column]
  next => rfl

/-- The diagnostic at another place. -/
def Diagnostic.relocate (move : Position → Position) (diagnostic : Diagnostic) : Diagnostic :=
  { diagnostic with position := move diagnostic.position }

/-- The token or the fault at another place. -/
def relocateItem (move : Position → Position) :
    Except Diagnostic Token → Except Diagnostic Token
  | .ok token => .ok (token.relocate move)
  | .error diagnostic => .error (diagnostic.relocate move)

/-- The stream with all its positions moved. -/
def TokenStream.relocate (move : Position → Position) (stream : TokenStream) : TokenStream where
  tokens := stream.tokens.map (Token.relocate move)
  ending := relocateItem move stream.ending
  real := by
    intro token member
    rcases List.mem_map.mp member with ⟨original, among, rfl⟩
    exact stream.real original among
  final := by
    intro token same
    cases ended : stream.ending with
    | error diagnostic =>
        rw [ended] at same
        cases same
    | ok original =>
        rw [ended] at same
        cases same
        exact stream.final original ended

namespace Cursor

/-! ## The same text at another place -/

/-- The cursor in a text that begins at `origin`. -/
def shifted (origin : Place) (cursor : Cursor) : Cursor :=
  { cursor with place := origin.shift cursor.place }

/-- All lines that the cursor can come to can be counted. -/
structure Countable (cursor : Cursor) : Prop where
  counted : cursor.place.Counted
  fits : cursor.place.line + cursor.rest.length < UInt32.size

namespace Countable

variable {cursor : Cursor}

/-- A cursor remains countable on its way through its text. -/
theorem move (countable : cursor.Countable) {text rest : List Char}
    (split : cursor.rest = text ++ rest) :
    (Cursor.mk rest (cursor.place.past text) cursor.file).Countable := by
  refine ⟨countable.counted.past text, ?_⟩
  have bound := Place.line_past_le cursor.place text
  have fits := countable.fits
  rw [split, List.length_append] at fits
  dsimp only
  omega

theorem skipSpace (countable : cursor.Countable) : cursor.skipSpace.Countable :=
  countable.move List.takeWhile_append_dropWhile.symm

theorem past (countable : cursor.Countable) :
    (cursor.past (Lexeme.scan cursor.rest)).Countable :=
  countable.move (Lexeme.scan_of cursor.rest).split.symm

theorem line_lt (countable : cursor.Countable) : cursor.place.line < UInt32.size :=
  Nat.lt_of_le_of_lt (Nat.le_add_right _ _) countable.fits

theorem position_shifted (countable : cursor.Countable) (text : List Char) :
    (cursor.shifted (Place.start.past text)).position = cursor.position.behind text :=
  Place.inFile_shift text countable.counted countable.line_lt cursor.file

/-- Reading at another place gives the same, with positions moved. -/
theorem nextToken_shifted (countable : cursor.Countable) (text : List Char) :
    (cursor.shifted (Place.start.past text)).nextToken =
      (relocateItem (Position.behind text) cursor.nextToken.1,
        cursor.nextToken.2.shifted (Place.start.past text)) := by
  have start : (cursor.shifted (Place.start.past text)).skipSpace =
      cursor.skipSpace.shifted (Place.start.past text) := by
    simp only [Cursor.skipSpace, shifted, Place.shift_past _ countable.counted]
  have stop : ∀ scan, (cursor.skipSpace.shifted (Place.start.past text)).past scan =
      (cursor.skipSpace.past scan).shifted (Place.start.past text) := by
    intro scan
    simp only [Cursor.past, shifted, Place.shift_past _ countable.skipSpace.counted]
  simp only [nextToken, start]
  rw [show (cursor.skipSpace.shifted (Place.start.past text)).rest = cursor.skipSpace.rest from rfl,
    stop]
  refine congrArg (·, _) ?_
  simp only [report]
  split
  next kind value reading =>
    rw [stop, countable.skipSpace.position_shifted, countable.skipSpace.past.position_shifted]
    rfl
  next cause ahead reading =>
    have inside : cursor.skipSpace.rest =
        (Lexeme.scan cursor.skipSpace.rest).taken.take ahead ++
          ((Lexeme.scan cursor.skipSpace.rest).taken.drop ahead ++
            (Lexeme.scan cursor.skipSpace.rest).rest) := by
      rw [← List.append_assoc, List.take_append_drop]
      exact (Lexeme.scan_of _).split.symm
    have blamed := countable.skipSpace.move inside
    have moved := Place.shift_past (Place.start.past text) countable.skipSpace.counted
      ((Lexeme.scan cursor.skipSpace.rest).taken.take ahead)
    simp only [shifted, relocateItem, Diagnostic.relocate, moved]
    rw [Place.inFile_shift text blamed.counted blamed.line_lt]

/-- The stream at another place is the stream with its positions moved. -/
theorem stream_shifted (countable : cursor.Countable) (text : List Char) :
    (cursor.shifted (Place.start.past text)).stream =
      cursor.stream.relocate (Position.behind text) := by
  induction cursor using stream_induction with
  | ended cursor nothing =>
      have nothingHere : (cursor.shifted (Place.start.past text)).hasNext = false := nothing
      rw [stream_of_end nothing, stream_of_end nothingHere, countable.position_shifted]
      rfl
  | fault cursor after diagnostic more read =>
      have moreHere : (cursor.shifted (Place.start.past text)).hasNext = true := more
      have readHere := countable.nextToken_shifted text
      rw [read] at readHere
      rw [stream_of_fault more read, stream_of_fault moreHere readHere]
      rfl
  | token cursor after token more read ih =>
      have moreHere : (cursor.shifted (Place.start.past text)).hasNext = true := more
      have readHere := countable.nextToken_shifted text
      have behind : cursor.nextToken.2.Countable := countable.skipSpace.past
      rw [read] at readHere behind
      rw [stream_of_token more read, stream_of_token moreHere readHere]
      simp only [ih behind]
      rfl

end Countable

/-! ## More text behind -/

/-- The cursor with more text behind its own. -/
def followedBy (cursor : Cursor) (more : List Char) : Cursor :=
  { cursor with rest := cursor.rest ++ more }

variable {cursor after last : Cursor} {token : Token} {tokens : List Token} {more : List Char}

/-- A token that more text cannot change is read in front of it, too. -/
theorem nextToken_followedBy (read : cursor.nextToken = (.ok token, after))
    (severs : after.rest = [] → Lexeme.Severs token.kind more) :
    (cursor.followedBy more).nextToken = (.ok token, after.followedBy more) := by
  have start : (cursor.followedBy more).skipSpace = cursor.skipSpace.followedBy more := by
    have run := @Lexeme.takeWhile_extends Lexeme.isSpace cursor.rest more fun finished => by
      have blank : cursor.skipSpace.rest = [] := finished
      simp [nextToken, blank, Lexeme.scan, report, Lexeme.Scan.faulty] at read
    simp only [skipSpace, followedBy, run.1, run.2]
  simp only [nextToken, Prod.mk.injEq] at read
  rcases read with ⟨outcome, rfl⟩
  simp only [report] at outcome
  split at outcome
  next kind value reading =>
    cases outcome
    have scanned : Lexeme.scan (cursor.skipSpace.followedBy more).rest = _ :=
      Lexeme.scan_extends cursor.skipSpace.rest more kind value reading severs
    simp only [nextToken, start, scanned, report, Lexeme.Scan.before, reading]
    rfl
  next => cases outcome

/-- The tokens that a cursor passes are passed with more text behind them, too. -/
theorem Passes.followedBy (passes : Passes cursor tokens last)
    (severs : last.rest = [] → ∀ token ∈ tokens.getLast?, Lexeme.Severs token.kind more) :
    Passes (cursor.followedBy more) tokens (last.followedBy more) := by
  induction passes with
  | done => exact .done
  | @token cursor after last token tokens read others ih =>
      cases others with
      | done =>
          exact .token (nextToken_followedBy read fun finished => severs finished token rfl) .done
      | @token _ _ _ second _ next behind =>
          refine .token (nextToken_followedBy read fun finished => ?_) (ih ?_)
          · have shorter := nextToken_rest_lt next
            rw [finished] at shorter
            cases shorter
          · simpa only [List.getLast?_cons_cons] using severs

/-! ## White space in front -/

/-- White space in front of a text is passed before anything is read. -/
theorem nextToken_gap {gap : List Char} (blank : ∀ c ∈ gap, Lexeme.isSpace c = true)
    (text : List Char) (place : Place) (file : String) :
    (Cursor.mk (gap ++ text) place file).nextToken =
      (Cursor.mk text (place.past gap) file).nextToken := by
  have start : (Cursor.mk (gap ++ text) place file).skipSpace =
      (Cursor.mk text (place.past gap) file).skipSpace := by
    simp only [skipSpace, List.takeWhile_append_of_pos blank, List.dropWhile_append_of_pos blank,
      Place.past_append]
  simp only [nextToken, start]

theorem hasNext_gap {gap : List Char} (blank : ∀ c ∈ gap, Lexeme.isSpace c = true)
    (text : List Char) (place : Place) (file : String) :
    (Cursor.mk (gap ++ text) place file).hasNext =
      (Cursor.mk text (place.past gap) file).hasNext := by
  have nothing : (gap.any fun character => !Lexeme.isSpace character) = false := by
    simpa using blank
  simp only [hasNext, List.any_append, nothing, Bool.false_or]

/-- White space in front of a text makes no difference to what is read from the text. -/
theorem stream_gap {gap : List Char} (blank : ∀ c ∈ gap, Lexeme.isSpace c = true)
    {text : List Char} {place : Place} {file : String}
    (more : (Cursor.mk text (place.past gap) file).hasNext = true) :
    (Cursor.mk (gap ++ text) place file).stream =
      (Cursor.mk text (place.past gap) file).stream := by
  have moreHere := (hasNext_gap blank text place file).trans more
  have same := nextToken_gap blank text place file
  cases read : (Cursor.mk text (place.past gap) file).nextToken with
  | mk outcome after =>
      rw [read] at same
      cases outcome with
      | ok token => rw [stream_of_token more read, stream_of_token moreHere same]
      | error diagnostic => rw [stream_of_fault more read, stream_of_fault moreHere same]

/-! ## Two sources -/

/-- Where a stream is over, nothing but white space is left. -/
theorem hasNext_of_over {final : Token} (nothing : cursor.stream.tokens = [])
    (ended : cursor.stream.ending = .ok final) : cursor.hasNext = false := by
  refine Bool.eq_false_iff.mpr fun more => ?_
  cases read : cursor.nextToken with
  | mk outcome after =>
      cases outcome with
      | ok token =>
          rw [stream_of_token more read] at nothing
          cases nothing
      | error diagnostic =>
          rw [stream_of_fault more read] at ended
          cases ended

/-- What comes behind the tokens that a cursor passes, when white space and a text are added behind
its own text.  If nothing comes, the input ends where it has ended before. -/
theorem stream_followedBy (passes : Passes cursor tokens last) (ended : last.hasNext = false)
    {gap text : List Char} (blank : ∀ c ∈ gap, Lexeme.isSpace c = true)
    (severs : ∀ token ∈ tokens.getLast?, Lexeme.Severs token.kind (gap ++ text)) {behind : Cursor}
    (stands : behind = ⟨text, last.place.past (last.rest ++ gap), last.file⟩) :
    (cursor.followedBy (gap ++ text)).stream.tokens = tokens ++ behind.stream.tokens ∧
      (cursor.followedBy (gap ++ text)).stream.ending =
        if behind.hasNext then behind.stream.ending else last.stream.ending := by
  have spaces : ∀ c ∈ last.rest ++ gap, Lexeme.isSpace c = true := by
    intro c member
    rcases List.mem_append.mp member with inLast | inGap
    · simpa using List.any_eq_false.mp ended c inLast
    · exact blank c inGap
  have left : last.followedBy (gap ++ text) =
      ⟨(last.rest ++ gap) ++ text, last.place, last.file⟩ := by
    rw [followedBy, List.append_assoc]
  subst stands
  rcases (passes.followedBy fun _ => severs).stream_eq with ⟨tokensEq, endingEq⟩
  rw [tokensEq, endingEq, left]
  split
  next more =>
    rw [stream_gap spaces more]
    exact ⟨rfl, rfl⟩
  next nothing =>
    have nothingThere := Bool.eq_false_iff.mpr nothing
    have nothingHere := (hasNext_gap spaces text last.place last.file).trans nothingThere
    rw [stream_of_end nothingHere, stream_of_end nothingThere, stream_of_end ended]
    exact ⟨rfl, rfl⟩

/-- A source with text in front of it is read as on its own, with its positions moved. -/
theorem stream_behind {back : String} (file : Option String) (text : List Char)
    (short : back.length < UInt32.size - 1) :
    (Cursor.mk back.toList (Place.start.past text) (file.getD unnamed)).stream =
      (ofSource back file).stream.relocate (Position.behind text) := by
  have countable : (ofSource back file).Countable := by
    refine ⟨Place.counted_start, ?_⟩
    simp only [ofSource, Place.start, String.length_toList]
    omega
  rw [← countable.stream_shifted text]
  simp only [ofSource, shifted, Place.shift_start]

/-- Behind a source that can be cut into tokens, with white space or a token that ends by itself at
the seam, the stream of a second source goes on.  If there is nothing in the second source, the end
of the input is still where the first source has it. -/
theorem stream_append {front gap back : String} {file : Option String}
    (short : (front ++ gap ++ back).length < UInt32.size - 1)
    (lexed : tokenize front file = .ok tokens)
    (blank : ∀ c ∈ gap.toList, Lexeme.isSpace c = true)
    (seam : gap ≠ "" ∨ ∀ token ∈ tokens.getLast?, token.kind.endsItself = true) :
    (ofSource (front ++ gap ++ back) file).stream.tokens = tokens ++
        (ofSource back file).stream.tokens.map
          (Token.relocate (Position.behind (front ++ gap).toList)) ∧
      (ofSource (front ++ gap ++ back) file).stream.ending =
        if (ofSource back file).hasNext then
          relocateItem (Position.behind (front ++ gap).toList) (ofSource back file).stream.ending
        else
          .ok (.closing file tokens) := by
  rcases stream_ofSource lexed with ⟨whole, ended⟩
  obtain ⟨last, passes, finished⟩ := exists_passes (whole.trans tokens.append_nil.symm)
  rcases passes.exists_text with ⟨text, restEq, placeEq, fileEq⟩
  have lastEnds : last.stream.ending = .ok (.closing file tokens) :=
    passes.stream_eq.2.symm.trans ended
  have severs : ∀ token ∈ tokens.getLast?,
      Lexeme.Severs token.kind (gap.toList ++ back.toList) := by
    intro token member
    rcases seam with nonempty | tight
    · right
      intro character next
      cases spaces : gap.toList with
      | nil => exact absurd (String.toList_eq_nil_iff.mp spaces) nonempty
      | cons space others =>
          rw [spaces] at next blank
          cases next
          exact Lexeme.mem_separators_of_isSpace (blank character (.head others))
    · exact .inl (tight token member)
  have place : last.place.past (last.rest ++ gap.toList) =
      Place.start.past (front ++ gap).toList := by
    have split : front.toList = text ++ last.rest := restEq
    rw [String.toList_append, split, placeEq, List.append_assoc, Place.past_append _ text]
    rfl
  have stands : Cursor.mk back.toList (Place.start.past (front ++ gap).toList) (file.getD unnamed) =
      ⟨back.toList, last.place.past (last.rest ++ gap.toList), last.file⟩ := by
    rw [place, fileEq]
    rfl
  have source : ofSource (front ++ gap ++ back) file =
      (ofSource front file).followedBy (gap.toList ++ back.toList) := by
    simp [ofSource, followedBy]
  have shortBack : back.length < UInt32.size - 1 := Nat.lt_of_le_of_lt (by simp) short
  rcases stream_followedBy passes (hasNext_of_over finished lastEnds) blank severs stands with
    ⟨tokensEq, endingEq⟩
  rw [stream_behind file _ shortBack] at tokensEq endingEq
  rw [source, tokensEq, endingEq, lastEnds]
  exact ⟨rfl, rfl⟩

end Cursor

/-- With white space or a token that ends by itself at the seam, two sources together are cut into
the tokens of both, or are broken by the fault of the second. -/
theorem tokenize_append {front gap back : String} {file : Option String} {tokens : List Token}
    (short : (front ++ gap ++ back).length < UInt32.size - 1)
    (lexed : tokenize front file = .ok tokens)
    (blank : ∀ c ∈ gap.toList, Lexeme.isSpace c = true)
    (seam : gap ≠ "" ∨ ∀ token ∈ tokens.getLast?, token.kind.endsItself = true) :
    tokenize (front ++ gap ++ back) file =
      match tokenize back file with
      | .ok others =>
          .ok (tokens ++ others.map (Token.relocate (Position.behind (front ++ gap).toList)))
      | .error diagnostic =>
          .error (diagnostic.relocate (Position.behind (front ++ gap).toList)) := by
  rcases Cursor.stream_append short lexed blank seam with ⟨tokensEq, endingEq⟩
  simp only [tokenize, Cursor.drain_eq_items, TokenStream.gather_items]
  rw [tokensEq, endingEq]
  cases more : (Cursor.ofSource back file).hasNext with
  | false =>
      rw [Cursor.stream_of_end more]
      rfl
  | true =>
      rw [if_pos rfl]
      cases (Cursor.ofSource back file).stream.ending <;> rfl

end Scriptlet
