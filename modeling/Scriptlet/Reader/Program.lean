import Scriptlet.Reader.Productions

/-!
# Programs

A production that is started on a reader may open as many levels as the reader has left of the
nesting limit. `parse` reads a whole source text as a program: statements up to the end of the
input.
-/

namespace Scriptlet

namespace Parse

variable {α : Type}

/-- How many productions may be open at one time. -/
def nestingLimit : Nat := 64

/-- Start a production with the levels that the reader has left of the limit. -/
def start (limit : Nat) (production : Productions → Parse α) : Parse α := fun reader =>
  production (Productions.within limit (limit - reader.depth)) reader

/-- A statement. -/
def statement (limit : Nat) : Parse Statement := start limit (·.statement)

/-- An expression whose operators bind more strongly than `power`. -/
def expression (limit : Nat) (power : Power) : Parse Expression :=
  start limit (·.expression power)

/-- A whole program. It begins where sources begin and ends where its end was seen. -/
def programBlock (inner : Productions) : Parse Block := do
  let start := Place.start.inFile (← get).cursor.file
  let body ← program inner (← rounds)
  let stop := (← peek).span.stop
  return ⟨body, ⟨start, stop⟩⟩

/-- Starting a statement is running its body one level further in, unless the limit is reached. -/
theorem statement_eq_nested (limit : Nat) (reader : Reader) :
    statement limit reader =
      nested limit
        (statementBody (Productions.within limit (limit - (reader.depth + 1)))) reader := by
  unfold statement start nested
  split
  next room =>
    have levels : limit - reader.depth = limit - (reader.depth + 1) + 1 := by omega
    rw [levels]
    rfl
  next full =>
    have levels : limit - reader.depth = 0 := by omega
    rw [levels]
    rfl

/-- Starting an expression is running its body one level further in, unless the limit is
reached. -/
theorem expression_eq_nested (limit : Nat) (power : Power) (reader : Reader) :
    expression limit power reader =
      nested limit
        (expressionBody (Productions.within limit (limit - (reader.depth + 1))) power) reader := by
  unfold expression start nested
  split
  next room =>
    have levels : limit - reader.depth = limit - (reader.depth + 1) + 1 := by omega
    rw [levels]
    rfl
  next full =>
    have levels : limit - reader.depth = 0 := by omega
    rw [levels]
    rfl

end Parse

/-- Read a program with the given limit on nesting. -/
def parseWithin (limit : Nat) (source : String) (file : Option String) : Except Halt Block :=
  match Parse.start limit Parse.programBlock (Reader.ofSource source file) with
  | .ok block _ => .ok block
  | .error halt _ => .error halt

/-- Read a source text as a program. -/
def parse (source : String) (file : Option String) : Except Halt Block :=
  parseWithin Parse.nestingLimit source file

end Scriptlet
