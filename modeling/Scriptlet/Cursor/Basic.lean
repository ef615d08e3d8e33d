import Scriptlet.Diagnostic.Basic
import Scriptlet.Lexeme.Basic
import Scriptlet.Token.Basic

/-!
# Cursors

A cursor stands somewhere in a source text and reads one token after another. `nextToken` says what
it read and where the cursor stands afterwards, which matters after a fault too: the cursor then
stands behind the characters that were taken before the fault was seen, and may be asked again.

The positions of tokens and diagnostics are those of the characters passed, because the cursor moves
by the text that a scan takes and in no other way.
-/

namespace Scriptlet

-- The core library has no such instance, and the program imports nothing else.
instance decideOutcome {ε α : Type} [DecidableEq ε] [DecidableEq α] : DecidableEq (Except ε α)
  | .ok one, .ok other => decidable_of_iff (one = other) ⟨congrArg _, Except.ok.inj⟩
  | .error one, .error other => decidable_of_iff (one = other) ⟨congrArg _, Except.error.inj⟩
  | .ok _, .error _ => isFalse nofun
  | .error _, .ok _ => isFalse nofun

/-- A place in a source text with the characters that follow it. -/
structure Cursor where
  rest : List Char
  place : Place
  file : String
  deriving DecidableEq, Repr

namespace Cursor

/-- The name of a source that comes from no file. -/
def unnamed : String := "shell"

/-- The cursor at the start of a source text. -/
def ofSource (source : String) (file : Option String) : Cursor where
  rest := source.toList
  place := .start
  file := file.getD unnamed

/-- Where the cursor stands. -/
def position (cursor : Cursor) : Position := cursor.place.inFile cursor.file

/-- Whether anything but white space follows. -/
def hasNext (cursor : Cursor) : Bool := cursor.rest.any fun character => !Lexeme.isSpace character

/-- The cursor behind the white space that it stands before. -/
def skipSpace (cursor : Cursor) : Cursor where
  rest := cursor.rest.dropWhile Lexeme.isSpace
  place := cursor.place.past (cursor.rest.takeWhile Lexeme.isSpace)
  file := cursor.file

/-- The cursor behind the text that a scan took. -/
def past (cursor : Cursor) (scan : Lexeme.Scan) : Cursor where
  rest := scan.rest
  place := cursor.place.past scan.taken
  file := cursor.file

/-- What a scan from this cursor amounts to, with positions. -/
def report (cursor : Cursor) (scan : Lexeme.Scan) : Except Diagnostic Token :=
  match scan.reading with
  | .token kind value =>
      .ok ⟨kind, String.ofList value, ⟨cursor.position, (cursor.past scan).position⟩⟩
  | .fault cause ahead =>
      .error ⟨cause, (cursor.place.past (scan.taken.take ahead)).inFile cursor.file⟩

/-- Read one token, and stand behind what was read. -/
def nextToken (cursor : Cursor) : Except Diagnostic Token × Cursor :=
  let start := cursor.skipSpace
  let scan := Lexeme.scan start.rest
  (start.report scan, start.past scan)

/-- Give up the rest of the source. Only the offset moves: the line and the column still tell where
reading stopped. -/
def exhaust (cursor : Cursor) : Cursor where
  rest := []
  place := { cursor.place with offset := cursor.place.offset + cursor.rest.length }
  file := cursor.file

/-- The next token of the stream, or `none` at its end. The first fault ends the stream. -/
def next (cursor : Cursor) : Option (Except Diagnostic Token) × Cursor :=
  if cursor.hasNext then
    match cursor.nextToken with
    | (.ok token, after) => (some (.ok token), after)
    | (.error diagnostic, after) => (some (.error diagnostic), after.exhaust)
  else
    (none, cursor)

/-- A token read leaves less of the source. -/
theorem nextToken_rest_lt {cursor after : Cursor} {token : Token}
    (read : cursor.nextToken = (.ok token, after)) :
    after.rest.length < cursor.rest.length := by
  simp only [nextToken, Prod.mk.injEq] at read
  obtain ⟨outcome, rfl⟩ := read
  unfold report at outcome
  split at outcome
  next kind value reading =>
    have shorter := (Lexeme.scan_of cursor.skipSpace.rest).rest_lt reading
    have dropped : cursor.skipSpace.rest.length ≤ cursor.rest.length :=
      (List.dropWhile_sublist Lexeme.isSpace).length_le
    exact Nat.lt_of_lt_of_le shorter dropped
  next => exact absurd outcome (by simp)

/-- Whatever the stream yields, it leaves less of the source. -/
theorem next_rest_lt {cursor after : Cursor} {item : Except Diagnostic Token}
    (yielded : cursor.next = (some item, after)) :
    after.rest.length < cursor.rest.length := by
  unfold next at yielded
  split at yielded
  next more =>
    split at yielded
    next token reached read =>
      obtain ⟨_, rfl⟩ := Prod.mk.inj yielded
      exact nextToken_rest_lt read
    next diagnostic reached read =>
      obtain ⟨_, rfl⟩ := Prod.mk.inj yielded
      refine List.length_pos_iff.mpr fun nothing => ?_
      simp [hasNext, nothing] at more
  next => exact absurd (Prod.mk.inj yielded).1 (by simp)

/-- Everything that the stream yields, and the cursor at its end. -/
def drain (cursor : Cursor) : List (Except Diagnostic Token) × Cursor :=
  match _ : cursor.next with
  | (none, _) => ([], cursor)
  | (some item, after) =>
      let remaining := drain after
      (item :: remaining.1, remaining.2)
termination_by cursor.rest.length
decreasing_by exact next_rest_lt (by assumption)

end Cursor

/-- The tokens of a stream, or its first fault. -/
def gather : List (Except Diagnostic Token) → Except Diagnostic (List Token)
  | [] => .ok []
  | .ok token :: items => (gather items).map (token :: ·)
  | .error diagnostic :: _ => .error diagnostic

/-- The tokens of a source text. -/
def tokenize (source : String) (file : Option String) : Except Diagnostic (List Token) :=
  gather (Cursor.ofSource source file).drain.1

end Scriptlet
