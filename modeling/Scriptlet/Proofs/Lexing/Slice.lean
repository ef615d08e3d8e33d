import Scriptlet.Proofs.Lexing.Cover
import Scriptlet.Proofs.Lexing.Cut

/-!
# Slices of a source

What a source has from the first of some neighbouring tokens to the last of them is a source of its
own.  Cut into tokens, it gives these tokens, with their positions counted from where the slice
begins (`tokenize_slice`).
-/

namespace Scriptlet

/-! ## Positions counted from a point of the source -/

namespace Place

/-- Where a place of a text stands if the text begins at `origin`. -/
def shift (origin place : Place) : Place where
  offset := origin.offset + place.offset
  line := origin.line + (place.line - 1)
  column := if place.line = 1 then origin.column + (place.column - 1) else place.column

/-- Lines and columns are counted from one. -/
structure Counted (place : Place) : Prop where
  line : 1 ≤ place.line
  column : 1 ≤ place.column

theorem counted_start : start.Counted := ⟨Nat.le_refl _, Nat.le_refl _⟩

theorem Counted.step {place : Place} (counted : place.Counted) (character : Char) :
    (place.step character).Counted := by
  unfold Place.step
  split
  · exact ⟨Nat.le_add_left _ _, Nat.le_refl _⟩
  · exact ⟨counted.line, Nat.le_add_left _ _⟩

theorem Counted.past {place : Place} (counted : place.Counted) (text : List Char) :
    (place.past text).Counted := by
  induction text generalizing place with
  | nil => exact counted
  | cons character text ih => exact ih (counted.step character)

@[simp] theorem shift_start (origin : Place) : origin.shift start = origin := by
  simp [shift, start]

theorem shift_step (origin : Place) {place : Place} (counted : place.Counted) (character : Char) :
    (origin.shift place).step character = origin.shift (place.step character) := by
  rcases counted with ⟨line, column⟩
  unfold step
  split
  next =>
    simp only [shift, Place.mk.injEq]
    refine ⟨by omega, by omega, ?_⟩
    rw [if_neg (by omega)]
  next =>
    simp only [shift, Place.mk.injEq]
    refine ⟨by omega, trivial, ?_⟩
    split <;> omega

/-- Passing a text moves both places alike. -/
theorem shift_past (origin : Place) {place : Place} (counted : place.Counted) (text : List Char) :
    (origin.shift place).past text = origin.shift (place.past text) := by
  induction text generalizing place with
  | nil => rfl
  | cons character text ih =>
      rw [past_cons, past_cons, shift_step origin counted, ih (counted.step character)]

theorem line_le_past (place : Place) (text : List Char) : place.line ≤ (place.past text).line := by
  induction text generalizing place with
  | nil => exact Nat.le_refl _
  | cons character text ih =>
      refine Nat.le_trans ?_ (ih (place.step character))
      unfold step
      split <;> simp

theorem line_past_le (place : Place) (text : List Char) :
    (place.past text).line ≤ place.line + text.length := by
  induction text generalizing place with
  | nil => exact Nat.le_refl _
  | cons character text ih =>
      have one : (place.step character).line ≤ place.line + 1 := by
        unfold step
        split <;> simp
      have others := ih (place.step character)
      rw [past_cons, List.length_cons]
      omega

end Place

/-- The position counted from another one.  Columns are counted from it on its own line only. -/
def Position.relativeTo (position origin : Position) : Position where
  offset := position.offset - origin.offset
  line := position.line - origin.line + 1
  column :=
    if position.line = origin.line then position.column - origin.column + 1 else position.column
  file := position.file

/-- Counting from where a text begins gives the places in the text, as long as the lines can be
counted. -/
theorem Place.relativeTo_shift {origin place : Place} (counted : place.Counted)
    (fits : (origin.shift place).line < UInt32.size) (file : String) :
    ((origin.shift place).inFile file).relativeTo (origin.inFile file) = place.inFile file := by
  have difference : ∀ base count : Nat, UInt32.ofNat (base + count) - UInt32.ofNat base =
      UInt32.ofNat count := by
    intro base count
    rw [UInt32.ofNat_add, UInt32.add_comm, UInt32.add_sub_cancel]
  have successor : ∀ count : Nat, 1 ≤ count →
      UInt32.ofNat (count - 1) + 1 = UInt32.ofNat count := by
    intro count positive
    obtain ⟨before, rfl⟩ := Nat.exists_eq_add_of_le' positive
    rw [Nat.add_sub_cancel, UInt32.ofNat_add]
    rfl
  have sameLine : UInt32.ofNat (origin.shift place).line = UInt32.ofNat origin.line ↔
      place.line = 1 := by
    have positive := counted.line
    simp only [shift] at fits ⊢
    rw [← UInt32.toNat_inj, UInt32.toNat_ofNat_of_lt' fits, UInt32.toNat_ofNat_of_lt' (by omega)]
    omega
  simp only [Position.relativeTo, inFile, sameLine]
  simp only [shift]
  rw [difference, difference, successor _ counted.line]
  split
  next => rw [difference, successor _ counted.column]
  next => rfl

/-- The span with its ends moved. -/
def Span.relocate (move : Position → Position) (span : Span) : Span :=
  ⟨move span.start, move span.stop⟩

/-- The token at another place. -/
def Token.relocate (move : Position → Position) (token : Token) : Token :=
  { token with span := token.span.relocate move }

namespace Cursor

/-! ## Cursors on their way -/

/-- The cursor reads the tokens, one after the other, and then stands where `last` does. -/
inductive Passes : Cursor → List Token → Cursor → Prop where
  | done {cursor : Cursor} : Passes cursor [] cursor
  | token {cursor after last : Cursor} {token : Token} {tokens : List Token}
      (read : cursor.nextToken = (.ok token, after)) (others : Passes after tokens last) :
      Passes cursor (token :: tokens) last

/-- There is something to read where a token is read. -/
theorem hasNext_of_nextToken {cursor after : Cursor} {token : Token}
    (read : cursor.nextToken = (.ok token, after)) : cursor.hasNext = true := by
  refine (Bool.not_eq_false _).mp fun nothing => ?_
  have blank : cursor.skipSpace.rest = [] := by
    have spaces : ∀ character ∈ cursor.rest, Lexeme.isSpace character = true := by
      simpa [hasNext] using nothing
    simpa [skipSpace] using @List.dropWhile_append_of_pos _ _ cursor.rest [] spaces
  simp [nextToken, blank, Lexeme.scan, report, Lexeme.Scan.faulty] at read

/-- A token begins behind the white space before it. -/
theorem nextToken_start {cursor after : Cursor} {token : Token}
    (read : cursor.nextToken = (.ok token, after)) :
    token.span.start = cursor.skipSpace.position := by
  simp only [nextToken, Prod.mk.injEq] at read
  rcases read with ⟨outcome, _⟩
  simp only [report] at outcome
  split at outcome
  next => cases outcome; rfl
  next => exact absurd outcome (by simp)

/-- There is no white space to skip behind the white space. -/
theorem skipSpace_skipSpace (cursor : Cursor) : cursor.skipSpace.skipSpace = cursor.skipSpace := by
  have nothing : cursor.skipSpace.rest.takeWhile Lexeme.isSpace = [] := by
    rw [skipSpace]
    induction cursor.rest with
    | nil => rfl
    | cons character text ih =>
        by_cases space : Lexeme.isSpace character = true
        · rw [List.dropWhile_cons_of_pos space]
          exact ih
        · rw [List.dropWhile_cons_of_neg space, List.takeWhile_cons_of_neg space]
  have same : cursor.skipSpace.rest.dropWhile Lexeme.isSpace = cursor.skipSpace.rest := by
    have whole := @List.takeWhile_append_dropWhile _ Lexeme.isSpace cursor.skipSpace.rest
    rwa [nothing] at whole
  rw [skipSpace.eq_def cursor.skipSpace, nothing, same]
  rfl

/-- Reading a token skips the white space in any case. -/
theorem nextToken_skipSpace (cursor : Cursor) : cursor.skipSpace.nextToken = cursor.nextToken := by
  rw [nextToken, nextToken, skipSpace_skipSpace]

/-- Where there is no white space to skip, a token is read on the spot. -/
theorem nextToken_of_visible {cursor : Cursor} {character : Char} {text : List Char}
    (starts : cursor.rest = character :: text) (visible : Lexeme.isSpace character = false) :
    cursor.nextToken =
      (cursor.report (Lexeme.scan (character :: text)),
        cursor.past (Lexeme.scan (character :: text))) := by
  cases cursor with
  | mk rest place file =>
      subst starts
      simp [nextToken, skipSpace, visible]

namespace Passes

variable {cursor last : Cursor} {tokens : List Token}

/-- The tokens that a cursor passes are the first of its stream. -/
theorem stream_eq (passes : Passes cursor tokens last) :
    cursor.stream.tokens = tokens ++ last.stream.tokens ∧
      cursor.stream.ending = last.stream.ending := by
  induction passes with
  | done => exact ⟨rfl, rfl⟩
  | @token cursor after last token tokens read _ ih =>
      rw [stream_of_token (hasNext_of_nextToken read) read]
      exact ⟨congrArg (token :: ·) ih.1, ih.2⟩

/-- Passing tokens takes a text off the front, which the place moves along. -/
theorem exists_text (passes : Passes cursor tokens last) :
    ∃ text, cursor.rest = text ++ last.rest ∧ last.place = cursor.place.past text ∧
      last.file = cursor.file := by
  induction passes with
  | done => exact ⟨[], rfl, rfl, rfl⟩
  | @token _ _ _ token _ read _ ih =>
      rcases nextToken_takes read with ⟨gap, _, front, _, _, place, file⟩
      rcases ih with ⟨text, rest, moved, kept⟩
      refine ⟨gap ++ token.sourceText.toList ++ text, ?_, ?_, kept.trans file⟩
      · rw [front, rest, List.append_assoc _ text]
      · rw [moved, place, Place.past_append _ (gap ++ _) text]

/-- The white space before the first token may be skipped. -/
theorem skipSpace (passes : Passes cursor tokens last) (nonempty : tokens ≠ []) :
    Passes cursor.skipSpace tokens last ∧
      tokens.head?.map (·.span.start) = some cursor.skipSpace.position := by
  cases passes with
  | done => exact absurd rfl nonempty
  | token read others =>
      refine ⟨.token ?_ others, congrArg some (nextToken_start read)⟩
      rwa [nextToken_skipSpace]

/-- The last token ends where the cursor stands behind it. -/
theorem stop_eq (passes : Passes cursor tokens last) (nonempty : tokens ≠ []) :
    tokens.getLast?.map (·.span.stop) = some last.position := by
  induction passes with
  | done => exact absurd rfl nonempty
  | @token cursor after last token tokens read others ih =>
      cases others with
      | done => exact congrArg some (nextToken_stop read)
      | token next others =>
          rw [List.getLast?_cons_cons]
          exact ih (List.cons_ne_nil _ _)

end Passes

/-- A cursor passes the tokens at the front of its stream. -/
theorem exists_passes {cursor : Cursor} {before after : List Token}
    (stream : cursor.stream.tokens = before ++ after) :
    ∃ last, Passes cursor before last ∧ last.stream.tokens = after := by
  induction before generalizing cursor with
  | nil => exact ⟨cursor, .done, stream⟩
  | cons first before ih =>
      cases more : cursor.hasNext with
      | false =>
          rw [stream_of_end more] at stream
          cases stream
      | true =>
          cases read : cursor.nextToken with
          | mk outcome reached =>
              cases outcome with
              | error diagnostic =>
                  rw [stream_of_fault more read] at stream
                  cases stream
              | ok token =>
                  rw [stream_of_token more read] at stream
                  rcases List.cons.inj stream with ⟨rfl, others⟩
                  rcases ih others with ⟨last, passes, left⟩
                  exact ⟨last, .token read passes, left⟩

/-! ## Cursors in a slice -/

/-- The cursor stands in a slice where `outer` stands in the source: `more` of the source follows
behind the slice, and the slice begins at `origin`. -/
structure InSlice (origin : Place) (more : List Char) (cursor outer : Cursor) : Prop where
  rest : outer.rest = cursor.rest ++ more
  place : outer.place = origin.shift cursor.place
  counted : cursor.place.Counted
  file : outer.file = cursor.file

namespace InSlice

variable {origin : Place} {more : List Char} {cursor outer : Cursor}

/-- Counted from where the slice begins, the source stands where the slice does. -/
theorem position_eq (inside : InSlice origin more cursor outer)
    (fits : outer.place.line < UInt32.size) :
    outer.position.relativeTo (origin.inFile outer.file) = cursor.position := by
  rw [position, position, ← inside.file]
  rw [inside.place] at fits ⊢
  exact Place.relativeTo_shift inside.counted fits outer.file

/-- What is left of a text and of its front part, if the same is taken off both. -/
theorem rest_eq {taken left text rest : List Char} (own : taken ++ left = text)
    (whole : taken ++ rest = text ++ more) : rest = left ++ more := by
  rw [← own, List.append_assoc] at whole
  exact List.append_cancel_left whole

/-- The white space before a token that stands in the slice stands there, too. -/
theorem skipSpace (inside : InSlice origin more cursor outer)
    (kept : more.length ≤ outer.skipSpace.rest.length) :
    InSlice origin more cursor.skipSpace outer.skipSpace := by
  have gap : cursor.rest.takeWhile Lexeme.isSpace = outer.rest.takeWhile Lexeme.isSpace := by
    rw [Cursor.skipSpace, inside.rest] at kept
    rw [inside.rest]
    exact Lexeme.takeWhile_confined (Lexeme.length_takeWhile_le kept)
  constructor
  · refine rest_eq List.takeWhile_append_dropWhile ?_
    rw [gap, ← inside.rest]
    exact List.takeWhile_append_dropWhile
  · rw [Cursor.skipSpace, Cursor.skipSpace, inside.place, ← gap,
      Place.shift_past origin inside.counted]
  · exact inside.counted.past _
  · exact inside.file

/-- What is scanned as a token in the source is scanned as one in the slice. -/
theorem scan (inside : InSlice origin more cursor outer) {kind : TokenKind} {value : List Char}
    (reading : (Lexeme.scan outer.rest).reading = .token kind value)
    (kept : more.length ≤ (Lexeme.scan outer.rest).rest.length) :
    (Lexeme.scan cursor.rest).reading = .token kind value ∧
      InSlice origin more (cursor.past (Lexeme.scan cursor.rest))
        (outer.past (Lexeme.scan outer.rest)) := by
  rw [inside.rest] at reading kept
  rcases Lexeme.scan_confined cursor.rest more kind value reading kept with ⟨own, taken⟩
  refine ⟨own, ?_⟩
  constructor
  · refine rest_eq (Lexeme.scan_of cursor.rest).split ?_
    rw [Cursor.past, inside.rest, taken]
    exact (Lexeme.scan_of (cursor.rest ++ more)).split
  · rw [Cursor.past, Cursor.past, inside.place, inside.rest, taken,
      Place.shift_past origin inside.counted]
  · exact inside.counted.past _
  · exact inside.file

/-- What is read as a token in the source is read in the slice as the same token, counted from where
the slice begins. -/
theorem nextToken (inside : InSlice origin more cursor outer) {token : Token} {after : Cursor}
    (read : outer.nextToken = (.ok token, after)) (kept : more.length ≤ after.rest.length)
    (fits : after.place.line < UInt32.size) :
    ∃ reached, cursor.nextToken =
        (.ok (token.relocate (·.relativeTo (origin.inFile outer.file))), reached) ∧
      InSlice origin more reached after := by
  simp only [Cursor.nextToken, Prod.mk.injEq] at read
  rcases read with ⟨outcome, rfl⟩
  simp only [report] at outcome
  split at outcome
  next kind value reading =>
    cases outcome
    have shorter := (Lexeme.scan_of outer.skipSpace.rest).rest_lt reading
    have start := inside.skipSpace (Nat.le_trans kept (Nat.le_of_lt shorter))
    rcases start.scan reading kept with ⟨own, stop⟩
    have earlier := Nat.lt_of_le_of_lt (Place.line_le_past _ _) fits
    refine ⟨_, ?_, stop⟩
    simp only [Cursor.nextToken, report, own, Token.relocate, Span.relocate]
    have startEq : _ = cursor.skipSpace.position := start.position_eq earlier
    have stopEq : _ = (cursor.skipSpace.past _).position := stop.position_eq fits
    rw [← startEq, ← stopEq]
    rfl
  next => exact absurd outcome (by simp)

/-- Passing tokens in the source is passing them in the slice. -/
theorem passes (inside : InSlice origin more cursor outer) {tokens : List Token} {last : Cursor}
    (passed : Passes outer tokens last) (kept : more.length ≤ last.rest.length)
    (fits : last.place.line < UInt32.size) :
    ∃ reached,
      Passes cursor
        (tokens.map (Token.relocate (·.relativeTo (origin.inFile outer.file)))) reached ∧
      InSlice origin more reached last := by
  induction passed generalizing cursor with
  | done => exact ⟨cursor, .done, inside⟩
  | @token outer after last token tokens read others ih =>
      rcases others.exists_text with ⟨text, rest, place, _⟩
      have keptHere : more.length ≤ after.rest.length := by
        rw [rest, List.length_append]
        exact Nat.le_trans kept (Nat.le_add_left _ _)
      have fitsHere : after.place.line < UInt32.size := by
        rw [place] at fits
        exact Nat.lt_of_le_of_lt (Place.line_le_past _ _) fits
      rcases inside.nextToken read keptHere fitsHere with ⟨reached, own, behind⟩
      rcases ih behind kept fits with ⟨final, passed, stands⟩
      rcases nextToken_takes read with ⟨_, _, _, _, _, _, file⟩
      rw [file] at passed
      exact ⟨final, .token own passed, stands⟩

end InSlice

end Cursor

/-- The part of a source between two places that can be counted. -/
theorem Span.slice_eq {source : String} {before text after : List Char} {file : String}
    (split : source.toList = before ++ text ++ after) (short : source.length < UInt32.size) :
    Span.slice source ⟨(Place.start.past before).inFile file,
      (Place.start.past (before ++ text)).inFile file⟩ = text := by
  have length : before.length + text.length + after.length = source.length := by
    rw [← String.length_toList, split, List.length_append, List.length_append]
  simp only [Span.slice, Place.inFile, Place.offset_past, Place.start, Nat.zero_add,
    List.length_append]
  rw [UInt32.toNat_ofNat_of_lt' (by omega), UInt32.toNat_ofNat_of_lt' (by omega), split,
    List.append_assoc, List.take_length_add_append, List.drop_left, List.take_left]

/-- A slice from the first to the last of some neighbouring tokens gives these tokens. -/
theorem tokenize_slice {source : String} {file : Option String} {before used after : List Token}
    {span : Span} (short : source.length < UInt32.size - 1)
    (lexed : tokenize source file = .ok (before ++ used ++ after))
    (first : used.head?.map (·.span.start) = some span.start)
    (last : used.getLast?.map (·.span.stop) = some span.stop) :
    tokenize (String.ofList (span.slice source)) file =
      .ok (used.map (Token.relocate (·.relativeTo span.start))) := by
  have nonempty : used ≠ [] := by
    rintro rfl
    cases first
  rcases Cursor.stream_ofSource lexed with ⟨stream, _⟩
  rw [List.append_assoc] at stream
  rcases Cursor.exists_passes stream with ⟨front, ahead, rest⟩
  rcases Cursor.exists_passes rest with ⟨back, own, _⟩
  rcases own.skipSpace nonempty with ⟨passed, starts⟩
  -- The text before the slice, the slice, and the text behind it.
  rcases ahead.exists_text with ⟨lead, leadRest, leadPlace, leadFile⟩
  rcases passed.exists_text with ⟨text, textRest, textPlace, textFile⟩
  obtain ⟨gap, gapRest, gapPlace⟩ : ∃ gap, front.rest = gap ++ front.skipSpace.rest ∧
      front.skipSpace.place = front.place.past gap :=
    ⟨_, List.takeWhile_append_dropWhile.symm, rfl⟩
  have split : source.toList = (lead ++ gap) ++ text ++ back.rest := by
    rw [List.append_assoc, ← textRest, List.append_assoc, ← gapRest, ← leadRest]
    rfl
  have origin : front.skipSpace.place = Place.start.past (lead ++ gap) := by
    rw [gapPlace, leadPlace, Place.past_append]
    rfl
  have spanEq : span = ⟨front.skipSpace.position, back.position⟩ := by
    have start := Option.some.inj (first.symm.trans starts)
    have stop := Option.some.inj (last.symm.trans (passed.stop_eq nonempty))
    rw [← start, ← stop]
  have sliced : span.slice source = text := by
    rw [spanEq, Cursor.position, Cursor.position, textFile, textPlace, origin,
      ← Place.past_append]
    exact Span.slice_eq split (Nat.lt_of_lt_of_le short (Nat.sub_le _ _))
  have fits : back.place.line < UInt32.size := by
    have bound := Place.line_past_le Place.start (lead ++ gap ++ text)
    have length := congrArg List.length split
    rw [String.length_toList, List.length_append] at length
    rw [textPlace, origin, ← Place.past_append]
    simp only [Place.start] at bound ⊢
    omega
  have inside : Cursor.InSlice front.skipSpace.place back.rest
      (Cursor.ofSource (String.ofList text) file) front.skipSpace := by
    refine ⟨?_, (Place.shift_start _).symm, Place.counted_start, leadFile⟩
    rw [textRest]
    simp [Cursor.ofSource]
  rcases inside.passes passed (Nat.le_refl _) fits with ⟨reached, passes, stands⟩
  have finished : reached.rest = [] := by
    have same := stands.rest
    exact List.append_cancel_right (same.symm.trans (List.nil_append _).symm)
  have ended : reached.stream = .ended reached.position := by
    apply Cursor.stream_of_end
    simp [Cursor.hasNext, finished]
  rcases passes.stream_eq with ⟨tokens, ending⟩
  rw [sliced, tokenize, Cursor.drain_eq_items, TokenStream.gather_items, tokens, ending, ended,
    spanEq]
  simp [TokenStream.ended, TokenStream.closed, Except.map, Cursor.position]

end Scriptlet
