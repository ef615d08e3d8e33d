import Mathlib.Data.List.TakeWhile
import Scriptlet.Proofs.Derivation.Productions
import Scriptlet.Proofs.Lexing.Extend
import Scriptlet.Proofs.Session.Positions

/-!
# What diagnostics are about

A diagnostic is about something that can be seen: a character that is not white space comes next at
its position, or stands right in front of it, or the text ends there (`Position.Anchored`).  No
diagnostic is about the inside of a gap.

For faults of a cursor this follows from what scanners do (`Scan.Visible`), for what a reader blames
it is a contract.  The one position that is in a gap is where a source of nothing but white space
begins; nothing is wrong with such a source.
-/

namespace Scriptlet

/-! ## Scans -/

namespace Lexeme

/-- A token ends in a visible character.  A fault is blamed on where the scan began, or on a visible
character, or on the end of the text. -/
structure Scan.Visible (scan : Scan) : Prop where
  ends : ∀ kind value, scan.reading = .token kind value →
    ∀ c ∈ scan.taken.getLast?, isSpace c = false
  blames : ∀ cause ahead, scan.reading = .fault cause ahead →
    ahead = 0 ∨ ∀ c ∈ (scan.taken.drop ahead ++ scan.rest).head?, isSpace c = false

/-- White space belongs to no class that no separator belongs to. -/
theorem isSpace_of_accepted {accepted : Char → Bool} {c : Char}
    (table : (separators.all fun separator => !accepted separator) = true)
    (accepts : accepted c = true) : isSpace c = false := by
  refine (Bool.not_eq_true _).mp fun space => ?_
  have refused := List.all_eq_true.mp table c (mem_separators_of_isSpace space)
  rw [accepts] at refused
  cases refused

/-- A run ends in front of a character that it does not accept. -/
theorem rejected_of_dropWhile {accepted : Char → Bool} {text : List Char} :
    ∀ c ∈ (text.dropWhile accepted).head?, accepted c = false := by
  intro c next
  have refused := List.head?_dropWhile_not accepted text
  rw [next] at refused
  exact refused

namespace Scan

theorem verbatim_visible {kind : TokenKind} {taken rest : List Char}
    (visible : ∀ c ∈ taken, isSpace c = false) : (verbatim kind taken rest).Visible where
  ends _ _ _ c last := visible c (List.mem_of_getLast? last)
  blames _ _ fault := by cases fault

theorem faulty_visible (cause : Cause) (taken rest : List Char) :
    (faulty cause taken rest).Visible where
  ends _ _ token := by cases token
  blames _ _ fault := by
    cases fault
    exact .inl rfl

theorem quoted_visible {kind : TokenKind} {quote : Char} {text rest value : List Char}
    (visible : isSpace quote = false) :
    Scan.Visible ⟨text ++ [quote], rest, .token kind value⟩ where
  ends _ _ _ c last := by
    rw [List.getLast?_concat] at last
    cases last
    exact visible
  blames _ _ fault := by cases fault

theorem unterminated_visible (quote : Char) (taken : List Char) :
    (unterminated quote taken).Visible where
  ends _ _ token := by cases token
  blames _ _ fault := by
    cases fault
    right
    simp [unterminated]

theorem wrongEscape_visible (before sequence rest : List Char) {taken : List Char}
    (backslash : taken.head? = some '\\') : (wrongEscape before sequence taken rest).Visible where
  ends _ _ token := by cases token
  blames _ _ fault := by
    cases fault
    right
    intro c next
    cases taken with
    | nil => cases backslash
    | cons first others =>
        cases backslash
        simp only [wrongEscape, List.drop_left, List.cons_append, List.head?_cons,
          Option.mem_some] at next
        rw [← next]
        rfl

end Scan

theorem variableName_visible (kind : VariableKind) (text : List Char) :
    (variableName kind text).Visible := by
  unfold variableName
  split
  next => exact Scan.faulty_visible _ _ _
  next first more run =>
    apply Scan.verbatim_visible
    intro c member
    rcases List.mem_cons.mp member with rfl | inside
    · cases kind <;> rfl
    · rw [← run] at inside
      have part : isNamePart c = true := List.mem_takeWhile_imp inside
      exact isSpace_of_accepted (by decide) part

theorem visible_of_kindOf? {vocabulary : Vocabulary}
    (table : (vocabulary.all fun entry => entry.1.all (!isSpace ·)) = true) {spelling : List Char}
    {kind : TokenKind} (found : vocabulary.kindOf? spelling = some kind) :
    ∀ c ∈ spelling, isSpace c = false := by
  intro c inside
  rcases List.lookup_eq_some_iff.mp found with ⟨before, after, rfl, _⟩
  have entry := List.all_eq_true.mp table (spelling, kind) (by simp)
  have visible := List.all_eq_true.mp entry c inside
  rwa [Bool.not_eq_true'] at visible

theorem vocabularyWord_visible (accepted : Char → Bool) {vocabulary : Vocabulary}
    {unknown : String → Cause}
    (table : (vocabulary.all fun entry => entry.1.all (!isSpace ·)) = true) (text : List Char) :
    (vocabularyWord accepted vocabulary unknown text).Visible := by
  unfold vocabularyWord
  dsimp only
  split
  next kind found => exact Scan.verbatim_visible (visible_of_kindOf? table found)
  next => exact Scan.faulty_visible _ _ _

theorem symbol_visible (text : List Char) : (symbol text).Visible := by
  unfold symbol
  split
  next spelling kind left =>
    have found := (giveBack_eq_some_iff.mp left).2
    exact Scan.verbatim_visible (visible_of_kindOf? (by decide) found)
  next => exact Scan.faulty_visible _ _ _

theorem Number.run_visible {state : Number.State} (marked : state.Marked) (text : List Char) :
    ∀ c ∈ (Number.run state text).taken, isSpace c = false := by
  induction text generalizing state with
  | nil => simp [Number.run]
  | cons character text ih =>
      unfold Number.run
      split
      next => simp
      next next moved =>
        intro c member
        rcases List.mem_cons.mp member with rfl | inside
        · refine (Bool.not_eq_true _).mp fun space => ?_
          rw [marked.step_separator (mem_separators_of_isSpace space)] at moved
          cases moved
        · exact ih (.step moved) c inside

theorem number_visible (text : List Char) : (number text).Visible := by
  unfold number
  dsimp only
  split
  next =>
    have nothing : Number.State.Marked .nothing := trivial
    exact Scan.verbatim_visible (Number.run_visible nothing text)
  next => exact Scan.faulty_visible _ _ _

theorem Piece.escape_wrong_head {letter : Char} {text sequence taken rest : List Char}
    (wrong : Piece.escape letter text = .wrong sequence taken rest) : taken.head? = some '\\' := by
  unfold Piece.escape at wrong
  dsimp only at wrong
  repeat' split at wrong
  all_goals cases wrong
  all_goals rfl

/-- What begins no unit begins with a backslash. -/
theorem Piece.first_wrong_head {text sequence taken rest : List Char}
    (wrong : Piece.first text = .wrong sequence taken rest) : taken.head? = some '\\' := by
  unfold Piece.first at wrong
  split at wrong
  next => cases wrong
  next =>
    split at wrong
    next =>
      split at wrong
      next => cases wrong
      next => exact Piece.escape_wrong_head wrong
    next => cases wrong

theorem Body.read_wrong_head {quote : Char} {text front sequence taken rest : List Char}
    (wrong : Body.read quote text = .wrong front sequence taken rest) :
    taken.head? = some '\\' := by
  fun_induction Body.read quote text generalizing front with
  | case1 => cases wrong
  | case2 text _ unit behind _ ih =>
      cases inner : Body.read quote behind with
      | closed | ended =>
          rw [inner] at wrong
          cases wrong
      | wrong =>
          rw [inner] at wrong
          cases wrong
          exact ih inner
  | case3 text _ _ _ _ first =>
      cases wrong
      exact Piece.first_wrong_head first
  | case4 => cases wrong

theorem stringLiteral_visible (text : List Char) : (stringLiteral text).Visible := by
  unfold stringLiteral
  split
  next => exact Scan.quoted_visible rfl
  next wrong => exact Scan.wrongEscape_visible _ _ _ (Body.read_wrong_head wrong)
  next => exact Scan.unterminated_visible _ _

theorem characterLiteral_visible (text : List Char) : (characterLiteral text).Visible := by
  unfold characterLiteral
  split
  next => exact Scan.faulty_visible _ _ _
  next =>
    split
    next => exact Scan.unterminated_visible _ _
    next wrong => exact Scan.wrongEscape_visible _ _ _ (Piece.first_wrong_head wrong)
    next => exact Scan.unterminated_visible _ _
    next =>
      split
      next => exact Scan.quoted_visible rfl
      next => exact Scan.faulty_visible _ _ _

theorem scan_visible (text : List Char) : (scan text).Visible := by
  unfold scan
  split
  next => exact Scan.faulty_visible _ _ _
  next character text =>
    split
    next => exact symbol_visible _
    next =>
      split
      next kind _ => exact variableName_visible kind text
      next =>
        repeat' split
        · exact number_visible _
        · exact stringLiteral_visible text
        · exact characterLiteral_visible text
        · exact symbol_visible _
        · exact vocabularyWord_visible _ (by decide) _
        · exact vocabularyWord_visible _ (by decide) _
        · exact Scan.faulty_visible _ _ _

end Lexeme

/-! ## Positions -/

/-- The position stands behind a front part of the source, and not inside a gap: a visible character
or nothing comes next, or a visible character stands in front. -/
def Position.Anchored (source : String) (file : Option String) (position : Position) : Prop :=
  ∃ passed rest, source.toList = passed ++ rest ∧
    position = (Place.start.past passed).inFile (file.getD Cursor.unnamed) ∧
    ((∀ c ∈ rest.head?, Lexeme.isSpace c = false) ∨
      ∃ c ∈ passed.getLast?, Lexeme.isSpace c = false)

namespace Cursor

variable {source : String} {file : Option String} {cursor after : Cursor}

/-- Something to read comes next, or a visible character stands in front of the cursor. -/
def Anchored (source : String) (file : Option String) (cursor : Cursor) : Prop :=
  ∃ passed, source.toList = passed ++ cursor.rest ∧ cursor.place = Place.start.past passed ∧
    cursor.file = file.getD unnamed ∧
    (cursor.hasNext = true ∨ ∃ c ∈ passed.getLast?, Lexeme.isSpace c = false)

theorem Anchored.standsIn (anchored : cursor.Anchored source file) :
    cursor.StandsIn source file := by
  obtain ⟨passed, split, place, named, _⟩ := anchored
  exact ⟨passed, split, place, named⟩

/-- Behind the gap stands a visible character. -/
theorem head_skipSpace (cursor : Cursor) :
    ∀ c ∈ cursor.skipSpace.rest.head?, Lexeme.isSpace c = false :=
  Lexeme.rejected_of_dropWhile

/-- A cursor that looks at a visible character. -/
theorem StandsIn.anchored_of_head (stands : cursor.StandsIn source file)
    (visible : ∀ c ∈ cursor.rest.head?, Lexeme.isSpace c = false) :
    cursor.position.Anchored source file := by
  obtain ⟨passed, split, place, named⟩ := stands
  exact ⟨passed, cursor.rest, split, by rw [Cursor.position, place, named], .inl visible⟩

theorem StandsIn.start_anchored (stands : cursor.StandsIn source file) {token : Token}
    (read : cursor.nextToken = (.ok token, after)) : token.span.start.Anchored source file := by
  rw [nextToken_start read]
  exact stands.skipSpace.anchored_of_head cursor.head_skipSpace

/-- A cursor behind a token has a visible character in front of it. -/
theorem StandsIn.anchored_nextToken (stands : cursor.StandsIn source file) {token : Token}
    (read : cursor.nextToken = (.ok token, after)) : after.Anchored source file := by
  simp only [Cursor.nextToken, Prod.mk.injEq, Cursor.report] at read
  obtain ⟨outcome, rfl⟩ := read
  split at outcome
  next kind value reading =>
    have scanned := Lexeme.scan_of cursor.skipSpace.rest
    have nonempty := scanned.progress kind value reading
    obtain ⟨passed, split, place, named⟩ := stands.skipSpace
    refine ⟨passed ++ (Lexeme.scan cursor.skipSpace.rest).taken, ?_, ?_, named, .inr ?_⟩
    · rw [split, List.append_assoc]
      exact congrArg _ scanned.split.symm
    · rw [Place.past_append, ← place]
      rfl
    · have last := List.getLast?_eq_some_getLast nonempty
      refine ⟨_, ?_, (Lexeme.scan_visible _).ends kind value reading _ last⟩
      rw [List.getLast?_append, last]
      rfl
  next => cases outcome

/-- What a fault is blamed on. -/
theorem StandsIn.fault_anchored (stands : cursor.StandsIn source file) {diagnostic : Diagnostic}
    (read : cursor.nextToken = (.error diagnostic, after)) :
    diagnostic.position.Anchored source file := by
  simp only [Cursor.nextToken, Prod.mk.injEq, Cursor.report] at read
  obtain ⟨outcome, _⟩ := read
  split at outcome
  next => cases outcome
  next cause ahead reading =>
    cases outcome
    have visible := (Lexeme.scan_visible _).blames cause ahead reading
    have split := (Lexeme.scan_of cursor.skipSpace.rest).split
    generalize Lexeme.scan cursor.skipSpace.rest = scan at split visible
    have whole : cursor.skipSpace.rest =
        scan.taken.take ahead ++ (scan.taken.drop ahead ++ scan.rest) := by
      rw [← List.append_assoc, List.take_append_drop, split]
    apply (stands.skipSpace.move whole).anchored_of_head
    rcases visible with rfl | visible
    · rw [List.take_zero, List.nil_append] at whole
      rw [← whole]
      exact cursor.head_skipSpace
    · exact visible

/-- The fault that breaks a stream. -/
theorem StandsIn.stream_anchored (stands : cursor.StandsIn source file) {diagnostic : Diagnostic}
    (broken : cursor.stream.ending = .error diagnostic) :
    diagnostic.position.Anchored source file := by
  induction cursor using stream_induction with
  | ended cursor nothing =>
      rw [stream_of_end nothing] at broken
      cases broken
  | fault cursor after found more read =>
      rw [stream_of_fault more read] at broken
      cases broken
      exact stands.fault_anchored read
  | token cursor after token more read ih =>
      rw [stream_of_token more read] at broken
      have behind := stands.nextToken
      rw [read] at behind
      exact ih behind broken

/-- Where the input ends, behind the last token. -/
theorem Anchored.ended (anchored : cursor.Anchored source file) (nothing : cursor.hasNext = false) :
    cursor.position.Anchored source file := by
  obtain ⟨passed, split, place, named, more | last⟩ := anchored
  · cases nothing.symm.trans more
  · exact ⟨passed, cursor.rest, split, by rw [position, place, named], .inr last⟩

end Cursor

/-- The contract of a reader that blames nothing inside a gap. -/
def Contract.anchored (source : String) (file : Option String) : Contract where
  admits cursor lookahead := cursor.Anchored source file ∧
    ∀ shown ∈ lookahead, shown.span.start.Anchored source file
  abandons _ _ := True
  token shown := shown.span.start.Anchored source file
  point _ := True
  halt halt := ∀ diagnostic, halt = .failed diagnostic → diagnostic.position.Anchored source file
  abandoned _ := trivial
  held holds := holds.2 _ rfl
  used holds := ⟨holds.1, by rintro _ ⟨⟩⟩
  read := by
    rintro cursor after shown _ ⟨anchored, _⟩ read
    refine ⟨anchored.standsIn.anchored_nextToken read, ?_⟩
    rintro _ ⟨⟩
    exact anchored.standsIn.start_anchored read
  fault := by
    rintro cursor after diagnostic _ ⟨anchored, _⟩ read
    refine ⟨trivial, ?_⟩
    rintro _ ⟨⟩
    exact anchored.standsIn.fault_anchored read
  ended := by
    rintro cursor nothing ⟨anchored, _⟩
    refine ⟨anchored, ?_⟩
    rintro _ ⟨⟩
    exact anchored.ended nothing
  points _ _ _ := trivial
  blamed := by
    rintro shown cause anchored _ _ ⟨⟩
    exact anchored
  endless := by rintro _ ⟨⟩
  origin _ := trivial

/-! ## Diagnostics of a source -/

theorem tokenize_anchored {source : String} {file : Option String} {diagnostic : Diagnostic}
    (failed : tokenize source file = .error diagnostic) :
    diagnostic.position.Anchored source file := by
  rw [tokenize, Cursor.drain_eq_items, TokenStream.gather_items] at failed
  cases ending : (Cursor.ofSource source file).stream.ending with
  | ok final =>
      rw [ending] at failed
      cases failed
  | error found =>
      rw [ending] at failed
      cases failed
      exact (Cursor.standsIn_ofSource source file).stream_anchored ending

/-- Nothing is wrong with white space. -/
theorem parse_blank {source : String} {file : Option String}
    (nothing : (Cursor.ofSource source file).hasNext = false) :
    ∃ root, parse source file = .ok root := by
  have lexed : tokenize source file = .ok [] := by
    rw [tokenize, Cursor.drain_eq_items, TokenStream.gather_items, Cursor.stream_of_end nothing]
    rfl
  refine ⟨⟨[], _⟩, parse_ok_iff.mpr ⟨[], lexed, .nil, rfl⟩⟩

theorem parse_anchored {source : String} {file : Option String} {diagnostic : Diagnostic}
    (failed : parse source file = .error (.failed diagnostic)) :
    diagnostic.position.Anchored source file := by
  cases more : (Cursor.ofSource source file).hasNext with
  | false =>
      obtain ⟨root, read⟩ := parse_blank more
      cases failed.symm.trans read
  | true =>
      have begins : (Contract.anchored source file).Admits (Reader.ofSource source file) :=
        ⟨⟨[], rfl, rfl, rfl, .inl more⟩, by rintro _ ⟨⟩⟩
      have kept := parse_keeps (.anchored source file) begins
      rw [failed] at kept
      exact kept diagnostic rfl

end Scriptlet
