import Scriptlet.Cursor.Basic

/-!
# Sessions with a cursor

A session puts requests to one cursor, in any order, and goes on after faults with the cursor as
they left it. A copy of the cursor can be kept and taken up again.
-/

namespace Scriptlet.Cursor

/-- What may be asked of a cursor. -/
inductive Request where
  | hasNext
  | position
  | file
  | nextToken
  | next
  | drain
  | save
  | restore
  deriving DecidableEq, Repr

/-- The answer to a request. -/
inductive Reply where
  | flag (value : Bool)
  | position (value : Position)
  | file (name : String)
  | token (outcome : Except Diagnostic Token)
  | item (outcome : Option (Except Diagnostic Token))
  | items (outcomes : List (Except Diagnostic Token))
  | done

/-- A cursor and the copy that `restore` returns to. -/
structure Session where
  cursor : Cursor
  saved : Cursor

namespace Session

/-- A session at the start of a source text, where it returns to until another copy is kept. -/
def ofCursor (cursor : Cursor) : Session := ⟨cursor, cursor⟩

/-- Answer one request. -/
def perform (session : Session) : Request → Reply × Session
  | .hasNext => (.flag session.cursor.hasNext, session)
  | .position => (.position session.cursor.position, session)
  | .file => (.file session.cursor.file, session)
  | .nextToken =>
      let (outcome, after) := session.cursor.nextToken
      (.token outcome, { session with cursor := after })
  | .next =>
      let (outcome, after) := session.cursor.next
      (.item outcome, { session with cursor := after })
  | .drain =>
      let (outcomes, after) := session.cursor.drain
      (.items outcomes, { session with cursor := after })
  | .save => (.done, { session with saved := session.cursor })
  | .restore => (.done, { session with cursor := session.saved })

/-- Answer requests in turn. Each answer comes with the session as the request left it. -/
def run (session : Session) : List Request → List (Reply × Session)
  | [] => []
  | request :: requests =>
      let step := session.perform request
      step :: step.2.run requests

end Session

end Scriptlet.Cursor
