import Scriptlet.Cursor.Session
import Scriptlet.Proofs.Lexing.Slice

/-!
# Coordinates

The place of an offset can be counted afresh from the text in front of it (`Place.ofOffset`).  A
cursor never does so: it carries a place along and moves it with each character.  Wherever a cursor
stands in a source, the two agree, and so do the positions of the tokens and faults that it reports.

The one exception is the end of a stream that a fault has ended.  There the cursor gives up the rest
of its source without passing it, and from then on it says no more than that nothing is left
(`Cursor.Spent`).
-/

namespace Scriptlet

namespace Place

/-- The place of an offset in a text: the line feeds in front of it tell the line, and the
characters behind the last of these tell the column. -/
def ofOffset (text : List Char) (offset : Nat) : Place where
  offset := offset
  line := 1 + (text.take offset).count '\n'
  column := 1 + ((text.take offset).reverse.takeWhile (· ≠ '\n')).length

/-- Moving along a text leads to the place that counting gives. -/
theorem past_start (text : List Char) : start.past text = ofOffset text text.length := by
  -- The last character decides about the column, so the induction takes it off first.
  obtain ⟨reversed, rfl⟩ : ∃ reversed : List Char, text = reversed.reverse :=
    ⟨text.reverse, text.reverse_reverse.symm⟩
  induction reversed with
  | nil => rfl
  | cons last earlier ih =>
      rw [List.reverse_cons, past_append, ih, past_cons, past_nil, step]
      simp only [ofOffset, List.take_length]
      by_cases feed : last = '\n'
      · simp [feed, Nat.add_assoc]
      · simp [feed, Nat.add_comm]

/-- The same for a front part of a text. -/
theorem past_start_of_prefix {passed text : List Char} (front : passed <+: text) :
    start.past passed = ofOffset text passed.length := by
  obtain ⟨rest, rfl⟩ := front
  rw [past_start]
  simp [ofOffset]

/-- Every character adds at most one to line and column together. -/
theorem line_add_column_past {place : Place} (counted : place.Counted) (text : List Char) :
    (place.past text).line + (place.past text).column ≤
      place.line + place.column + text.length := by
  induction text generalizing place with
  | nil => exact Nat.le_refl _
  | cons character text ih =>
      have one : (place.step character).line + (place.step character).column ≤
          place.line + place.column + 1 := by
        have positive := counted.column
        unfold step
        split <;> dsimp only <;> omega
      have others := ih (counted.step character)
      rw [past_cons, List.length_cons]
      omega

end Place

/-! ## Positions of a source -/

/-- The two ends of a span. -/
def Span.positions (span : Span) : List Position := [span.start, span.stop]

namespace Position

/-- The position stands behind a front part of the source. -/
def Reported (source : String) (file : Option String) (position : Position) : Prop :=
  ∃ passed, passed <+: source.toList ∧
    position = (Place.start.past passed).inFile (file.getD Cursor.unnamed)

/-- The position is an offset of the source with the line and the column of this offset. -/
structure TrueIn (source : String) (file : Option String) (position : Position) : Prop where
  within : position.offset.toNat ≤ source.length
  line : position.line.toNat = (Place.ofOffset source.toList position.offset.toNat).line
  column : position.column.toNat = (Place.ofOffset source.toList position.offset.toNat).column
  file_eq : position.file = file.getD Cursor.unnamed

/-- What stands behind a front part of a source is true, as long as lines and columns can be
counted. -/
theorem Reported.trueIn {source : String} {file : Option String} {position : Position}
    (short : source.length < UInt32.size - 1) (reported : position.Reported source file) :
    position.TrueIn source file := by
  obtain ⟨passed, front, rfl⟩ := reported
  have within : passed.length ≤ source.length := by
    rw [← String.length_toList]
    exact front.length_le
  have counted := Place.counted_start.past passed
  have bound := Place.line_add_column_past Place.counted_start passed
  have line := counted.line
  have column := counted.column
  rw [Place.past_start_of_prefix front] at bound line column ⊢
  have small : Place.start.line + Place.start.column = 2 := rfl
  have offset : ((Place.ofOffset source.toList passed.length).inFile
      (file.getD Cursor.unnamed)).offset.toNat = passed.length := by
    have fits : passed.length < UInt32.size := by omega
    exact UInt32.toNat_ofNat_of_lt' fits
  constructor
  · rwa [offset]
  · rw [offset]
    exact UInt32.toNat_ofNat_of_lt' (by omega)
  · rw [offset]
    exact UInt32.toNat_ofNat_of_lt' (by omega)
  · rfl

end Position

/-- The positions in one item of a stream. -/
def itemPositions : Except Diagnostic Token → List Position
  | .ok token => token.span.positions
  | .error diagnostic => [diagnostic.position]

/-! ## Cursors in a source -/

namespace Cursor

variable {source : String} {file : Option String} {cursor after : Cursor}

/-- The cursor has passed a front part of the source, and the rest of it follows. -/
def StandsIn (source : String) (file : Option String) (cursor : Cursor) : Prop :=
  ∃ passed, source.toList = passed ++ cursor.rest ∧ cursor.place = Place.start.past passed ∧
    cursor.file = file.getD unnamed

theorem standsIn_ofSource (source : String) (file : Option String) :
    (ofSource source file).StandsIn source file := ⟨[], rfl, rfl, rfl⟩

/-- A fault is blamed on a place that the cursor has in front of it. -/
theorem nextToken_fault_place {diagnostic : Diagnostic}
    (read : cursor.nextToken = (.error diagnostic, after)) :
    ∃ text, text <+: cursor.rest ∧
      diagnostic.position = (cursor.place.past text).inFile cursor.file := by
  simp only [nextToken, Prod.mk.injEq, report] at read
  obtain ⟨outcome, _⟩ := read
  split at outcome
  next => cases outcome
  next cause ahead reading =>
    cases outcome
    refine ⟨cursor.rest.takeWhile Lexeme.isSpace ++
      (Lexeme.scan cursor.skipSpace.rest).taken.take ahead, ?_, ?_⟩
    · have taken : (Lexeme.scan cursor.skipSpace.rest).taken.take ahead <+:
          cursor.rest.dropWhile Lexeme.isSpace :=
        (List.take_prefix _ _).trans ⟨_, (Lexeme.scan_of cursor.skipSpace.rest).split⟩
      have whole := (List.prefix_append_right_inj (cursor.rest.takeWhile Lexeme.isSpace)).mpr taken
      rwa [List.takeWhile_append_dropWhile] at whole
    · rw [Place.past_append]
      rfl

namespace StandsIn

/-- A cursor that has passed a bit more of the source. -/
theorem move (stands : cursor.StandsIn source file) {text rest : List Char}
    (split : cursor.rest = text ++ rest) :
    (Cursor.mk rest (cursor.place.past text) cursor.file).StandsIn source file := by
  obtain ⟨passed, whole, place, named⟩ := stands
  refine ⟨passed ++ text, ?_, ?_, named⟩
  · rw [whole, split, List.append_assoc]
  · rw [place, Place.past_append]

theorem position (stands : cursor.StandsIn source file) :
    cursor.position.Reported source file := by
  obtain ⟨passed, whole, place, named⟩ := stands
  refine ⟨passed, ⟨cursor.rest, whole.symm⟩, ?_⟩
  rw [Cursor.position, place, named]

theorem skipSpace (stands : cursor.StandsIn source file) :
    cursor.skipSpace.StandsIn source file :=
  stands.move List.takeWhile_append_dropWhile.symm

theorem past_scan (stands : cursor.StandsIn source file) :
    (cursor.past (Lexeme.scan cursor.rest)).StandsIn source file :=
  stands.move (Lexeme.scan_of cursor.rest).split.symm

theorem nextToken (stands : cursor.StandsIn source file) :
    cursor.nextToken.2.StandsIn source file := stands.skipSpace.past_scan

/-- Everything that a cursor reports stands behind a front part of the source, also where a fault is
blamed on the middle of a literal. -/
theorem report_nextToken (stands : cursor.StandsIn source file) :
    ∀ position ∈ itemPositions cursor.nextToken.1, position.Reported source file := by
  have behind := stands.nextToken
  cases read : cursor.nextToken with
  | mk outcome after =>
      rw [read] at behind
      cases outcome with
      | ok token =>
          simp only [itemPositions, Span.positions, List.forall_mem_cons]
          rw [nextToken_start read, nextToken_stop read]
          exact ⟨stands.skipSpace.position, behind.position, by simp⟩
      | error diagnostic =>
          obtain ⟨text, ⟨rest, split⟩, position⟩ := nextToken_fault_place read
          simp only [itemPositions, List.forall_mem_cons]
          rw [position]
          exact ⟨(stands.move split.symm).position, by simp⟩

theorem file_eq (stands : cursor.StandsIn source file) : cursor.file = file.getD unnamed := by
  obtain ⟨_, _, _, named⟩ := stands
  exact named

theorem rest_eq (stands : cursor.StandsIn source file) :
    cursor.rest = source.toList.drop cursor.place.offset := by
  obtain ⟨passed, whole, place, _⟩ := stands
  rw [whole, place, Place.offset_past]
  simp [Place.start]

/-- How far a cursor has come is the length of what it has passed. -/
theorem offset_add (stands : cursor.StandsIn source file) :
    cursor.place.offset + cursor.rest.length = source.length := by
  obtain ⟨passed, whole, place, _⟩ := stands
  rw [← String.length_toList, whole, place, Place.offset_past, List.length_append]
  simp [Place.start]

/-- Where a token stands in the source. -/
theorem exists_text (stands : cursor.StandsIn source file) {token : Token}
    (read : cursor.nextToken = (.ok token, after)) :
    ∃ before, source.toList = before ++ token.sourceText.toList ++ after.rest ∧
      token.span.start = (Place.start.past before).inFile (file.getD unnamed) ∧
      token.span.stop = (Place.start.past (before ++ token.sourceText.toList)).inFile
        (file.getD unnamed) := by
  obtain ⟨passed, split, place, named⟩ := stands
  obtain ⟨gap, _, rest, _, start, moved, same⟩ := nextToken_takes read
  refine ⟨passed ++ gap, ?_, ?_, ?_⟩
  · rw [split, rest, List.append_assoc, List.append_assoc, List.append_assoc]
  · rw [start, place, named, Place.past_append]
  · rw [nextToken_stop read, Cursor.position, moved, same, place, named, List.append_assoc,
      Place.past_append _ passed]

end StandsIn

/-- Reading never goes back, whether it gives a token or not. -/
theorem offset_le_nextToken (cursor : Cursor) :
    cursor.place.offset ≤ cursor.nextToken.2.place.offset := by
  simp only [nextToken, past, skipSpace, Place.offset_past]
  omega

/-- What the cursor says about itself is what the source says about the offset where it stands. -/
structure Tracks (source : String) (file : Option String) (cursor : Cursor) : Prop where
  within : cursor.place.offset ≤ source.length
  place_eq : cursor.place = Place.ofOffset source.toList cursor.place.offset
  rest_eq : cursor.rest = source.toList.drop cursor.place.offset
  small : cursor.place.line + cursor.place.column ≤ cursor.place.offset + 2
  position_true : cursor.position.TrueIn source file

theorem StandsIn.tracks (short : source.length < UInt32.size - 1)
    (stands : cursor.StandsIn source file) : cursor.Tracks source file := by
  have reported := stands.position
  have rest := stands.rest_eq
  obtain ⟨passed, whole, place, _⟩ := stands
  have offset : cursor.place.offset = passed.length := by
    rw [place, Place.offset_past]
    exact Nat.zero_add _
  have front : passed <+: source.toList := ⟨cursor.rest, whole.symm⟩
  constructor
  · rw [offset, ← String.length_toList]
    exact front.length_le
  · rw [offset, ← Place.past_start_of_prefix front, place]
  · exact rest
  · have bound := Place.line_add_column_past Place.counted_start passed
    rw [offset, place]
    simp only [Place.start] at bound ⊢
    omega
  · exact reported.trueIn short

/-! ## Streams that a fault has ended -/

/-- Nothing is left for the cursor, and asking it changes nothing. -/
structure Spent (cursor : Cursor) : Prop where
  hasNext_eq : cursor.hasNext = false
  next_eq : cursor.next = (none, cursor)
  nextToken_eq : cursor.nextToken = (.error ⟨.unexpectedEnd, cursor.position⟩, cursor)

theorem spent_exhaust (cursor : Cursor) : cursor.exhaust.Spent := ⟨rfl, rfl, rfl⟩

/-- The next item of a stream is read as a token is, unless there is none.  A fault exhausts the
cursor. -/
theorem next_cases (cursor : Cursor) :
    cursor.next = (none, cursor) ∨
      (∃ token after, cursor.nextToken = (.ok token, after) ∧
        cursor.next = (some (.ok token), after)) ∨
      ∃ diagnostic after, cursor.nextToken = (.error diagnostic, after) ∧
        cursor.next = (some (.error diagnostic), after.exhaust) := by
  rw [next]
  split
  next =>
    split
    next token after read => exact .inr (.inl ⟨token, after, read, rfl⟩)
    next diagnostic after read => exact .inr (.inr ⟨diagnostic, after, read, rfl⟩)
  next => exact .inl rfl

/-! ## Sessions -/

/-- The requests that ask for one thing, from where the cursor stands. -/
def Request.stepwise : List Request := [.hasNext, .position, .file, .nextToken, .next]

namespace Reply

/-- The positions in a reply. -/
def positions : Reply → List Position
  | .position value => [value]
  | .token outcome => itemPositions outcome
  | .item outcome => outcome.toList.flatMap itemPositions
  | .items outcomes => outcomes.flatMap itemPositions
  | .flag _ | .file _ | .done => []

/-- The reply is a fault that ends the stream. -/
def endsStream : Reply → Bool
  | .item (some (.error _)) => true
  | _ => false

/-- The reply of a cursor for which nothing is left. -/
def OfSpent (cursor : Cursor) : Reply → Prop
  | .flag value => value = false
  | .position value => value = cursor.position
  | .file name => name = cursor.file
  | .token outcome => outcome = .error ⟨.unexpectedEnd, cursor.position⟩
  | .item outcome => outcome = none
  | .items outcomes => outcomes = []
  | .done => True

end Reply

namespace Session

variable {session : Session} {request : Request} {requests : List Request}

/-- No single request moves the cursor back. -/
theorem offset_le_perform (stepwise : request ∈ Request.stepwise) :
    session.cursor.place.offset ≤ (session.perform request).2.cursor.place.offset := by
  simp only [Request.stepwise, List.mem_cons, List.not_mem_nil, or_false] at stepwise
  obtain rfl | rfl | rfl | rfl | rfl := stepwise
  · exact Nat.le_refl _
  · exact Nat.le_refl _
  · exact Nat.le_refl _
  · exact offset_le_nextToken session.cursor
  · have moved := offset_le_nextToken session.cursor
    obtain same | ⟨token, after, read, same⟩ | ⟨diagnostic, after, read, same⟩ :=
      next_cases session.cursor
    · simp only [perform, same]
      exact Nat.le_refl _
    · rw [read] at moved
      simpa only [perform, same] using moved
    · rw [read] at moved
      simp only [perform, same]
      exact Nat.le_trans moved (Nat.le_add_right _ _)

/-- One request, put to a cursor that stands in a source.  It goes on to stand there, unless the
stream ends with a fault. -/
theorem perform_standsIn (stepwise : request ∈ Request.stepwise)
    (stands : session.cursor.StandsIn source file) :
    (∀ position ∈ (session.perform request).1.positions, position.Reported source file) ∧
      ((session.perform request).1.endsStream = false ∧
          (session.perform request).2.cursor.StandsIn source file ∨
        (session.perform request).1.endsStream = true ∧
          (session.perform request).2.cursor.Spent) := by
  simp only [Request.stepwise, List.mem_cons, List.not_mem_nil, or_false] at stepwise
  obtain rfl | rfl | rfl | rfl | rfl := stepwise
  · exact ⟨by simp [perform, Reply.positions], .inl ⟨rfl, stands⟩⟩
  · exact ⟨by simpa [perform, Reply.positions] using stands.position, .inl ⟨rfl, stands⟩⟩
  · exact ⟨by simp [perform, Reply.positions], .inl ⟨rfl, stands⟩⟩
  · exact ⟨stands.report_nextToken, .inl ⟨rfl, stands.nextToken⟩⟩
  · have told := stands.report_nextToken
    have behind := stands.nextToken
    obtain same | ⟨token, after, read, same⟩ | ⟨diagnostic, after, read, same⟩ :=
      next_cases session.cursor
    · simp only [perform, same]
      exact ⟨by simp [Reply.positions], .inl ⟨rfl, stands⟩⟩
    · rw [read] at told behind
      simp only [perform, same]
      exact ⟨by simpa [Reply.positions] using told, .inl ⟨rfl, behind⟩⟩
    · rw [read] at told
      simp only [perform, same]
      exact ⟨by simpa [Reply.positions] using told, .inr ⟨rfl, spent_exhaust after⟩⟩

/-- A cursor for which nothing is left says so, and stays as it is. -/
theorem perform_spent (stepwise : request ∈ Request.stepwise) (spent : session.cursor.Spent) :
    (session.perform request).2.cursor = session.cursor ∧
      (session.perform request).1.OfSpent session.cursor := by
  simp only [Request.stepwise, List.mem_cons, List.not_mem_nil, or_false] at stepwise
  obtain rfl | rfl | rfl | rfl | rfl := stepwise
  · exact ⟨rfl, spent.hasNext_eq⟩
  · exact ⟨rfl, rfl⟩
  · exact ⟨rfl, rfl⟩
  · simp only [perform, spent.nextToken_eq]
    exact ⟨trivial, rfl⟩
  · simp only [perform, spent.next_eq]
    exact ⟨trivial, rfl⟩

/-! ### Whole sessions -/

theorem run_spent (stepwise : ∀ request ∈ requests, request ∈ Request.stepwise)
    (spent : session.cursor.Spent) :
    ∀ step ∈ session.run requests,
      step.2.cursor = session.cursor ∧ step.1.OfSpent session.cursor := by
  induction requests generalizing session with
  | nil => simp [run]
  | cons request requests ih =>
      obtain ⟨first, others⟩ := List.forall_mem_cons.mp stepwise
      obtain ⟨same, told⟩ := perform_spent first spent
      have later := @ih (session.perform request).2 others (by rwa [same])
      rw [same] at later
      exact List.forall_mem_cons.mpr ⟨⟨same, told⟩, later⟩

/-- A session never moves the cursor back. -/
theorem run_forward (stepwise : ∀ request ∈ requests, request ∈ Request.stepwise) :
    (∀ step ∈ session.run requests,
        session.cursor.place.offset ≤ step.2.cursor.place.offset) ∧
      (session.run requests).Pairwise fun step later =>
        step.2.cursor.place.offset ≤ later.2.cursor.place.offset := by
  induction requests generalizing session with
  | nil => exact ⟨by simp [run], .nil⟩
  | cons request requests ih =>
      obtain ⟨first, others⟩ := List.forall_mem_cons.mp stepwise
      have onward := @offset_le_perform session request first
      obtain ⟨beyond, ordered⟩ := @ih (session.perform request).2 others
      constructor
      · refine List.forall_mem_cons.mpr ⟨onward, fun step member => ?_⟩
        exact Nat.le_trans onward (beyond step member)
      · exact List.pairwise_cons.mpr ⟨beyond, ordered⟩

/-- What a step of a session shows, when the steps `later` follow it.  The positions in its reply
are true, and the cursor stands where it says.  If the step ends the stream with a fault, nothing is
left for the cursor, and no later step changes this. -/
structure Truthful (source : String) (file : Option String) (step : Reply × Session)
    (later : List (Reply × Session)) : Prop where
  told : ∀ position ∈ step.1.positions, position.TrueIn source file
  stands : step.1.endsStream = false → step.2.cursor.Tracks source file
  spent : step.1.endsStream = true → step.2.cursor.Spent ∧
    ∀ other ∈ later, other.2.cursor = step.2.cursor ∧ other.1.OfSpent step.2.cursor

/-- Every step of a session is truthful, up to and with the first that ends the stream. -/
theorem run_truthful (short : source.length < UInt32.size - 1)
    (stepwise : ∀ request ∈ requests, request ∈ Request.stepwise)
    (stands : session.cursor.StandsIn source file) {before later : List (Reply × Session)}
    {step : Reply × Session} (split : session.run requests = before ++ step :: later)
    (unended : ∀ earlier ∈ before, earlier.1.endsStream = false) :
    Truthful source file step later := by
  induction requests generalizing session before with
  | nil => simp [run] at split
  | cons request requests ih =>
      obtain ⟨first, others⟩ := List.forall_mem_cons.mp stepwise
      obtain ⟨told, behind⟩ := perform_standsIn first stands
      rw [run] at split
      cases before with
      | nil =>
          obtain ⟨rfl, rfl⟩ := List.cons.inj split
          refine ⟨fun position member => (told position member).trueIn short, ?_, ?_⟩
          · intro unended
            obtain ⟨_, still⟩ | ⟨ended, _⟩ := behind
            · exact still.tracks short
            · cases unended.symm.trans ended
          · intro ended
            obtain ⟨unended, _⟩ | ⟨_, spent⟩ := behind
            · cases unended.symm.trans ended
            · exact ⟨spent, run_spent others spent⟩
      | cons earlier before =>
          obtain ⟨rfl, rest⟩ := List.cons.inj split
          obtain ⟨here, before⟩ := List.forall_mem_cons.mp unended
          obtain ⟨_, still⟩ | ⟨ended, _⟩ := behind
          · exact ih others still rest before
          · cases here.symm.trans ended

end Session

/-! ## Streams -/

/-- All items of a stream stand in the source. -/
theorem stream_reported (stands : cursor.StandsIn source file) :
    ∀ item ∈ cursor.stream.items, ∀ position ∈ itemPositions item,
      position.Reported source file := by
  induction cursor using stream_induction with
  | ended cursor nothing =>
      rw [stream_of_end nothing]
      intro item member
      cases member
  | fault cursor after diagnostic more read =>
      have told := stands.report_nextToken
      rw [read] at told
      rw [stream_of_fault more read]
      intro item member
      cases List.mem_singleton.mp member
      exact told
  | token cursor after token more read ih =>
      have told := stands.report_nextToken
      have behind := stands.nextToken
      rw [read] at told behind
      rw [stream_of_token more read]
      exact List.forall_mem_cons.mpr ⟨told, ih behind⟩

end Cursor

end Scriptlet
