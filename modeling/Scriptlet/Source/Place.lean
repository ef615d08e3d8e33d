/-!
# Places in a source text

A `Place` is the running coordinate of a reader: how many characters it has passed, and the line and
column it stands on. A `Position` is a place as it is reported, in 32-bit words and with the name of
the file, and a `Span` is a pair of positions. Reading any text moves a place by the folded `step`,
so the coordinate of a place is a function of the characters passed and of nothing else.
-/

namespace Scriptlet

/-- A coordinate in a source text. The offset counts characters; lines and columns start at one. -/
structure Place where
  offset : Nat
  line : Nat
  column : Nat
  deriving DecidableEq, Repr

namespace Place

/-- Where every source text begins. -/
def start : Place := ⟨0, 1, 1⟩

/-- The place after one more character. A line feed opens the next line. -/
def step (place : Place) (character : Char) : Place :=
  if character = '\n' then
    ⟨place.offset + 1, place.line + 1, 1⟩
  else
    ⟨place.offset + 1, place.line, place.column + 1⟩

/-- The place after a whole text. -/
def past (place : Place) (text : List Char) : Place :=
  text.foldl step place

@[simp] theorem past_nil (place : Place) : place.past [] = place := rfl

@[simp] theorem past_cons (place : Place) (character : Char) (text : List Char) :
    place.past (character :: text) = (place.step character).past text := rfl

/-- Passing two texts one after the other is passing their concatenation. -/
@[simp] theorem past_append (place : Place) (first second : List Char) :
    place.past (first ++ second) = (place.past first).past second := by
  simp [past]

@[simp] theorem offset_step (place : Place) (character : Char) :
    (place.step character).offset = place.offset + 1 := by
  unfold step
  split <;> rfl

/-- The offset counts the characters passed. -/
@[simp] theorem offset_past (place : Place) (text : List Char) :
    (place.past text).offset = place.offset + text.length := by
  induction text generalizing place with
  | nil => rfl
  | cons character text ih =>
      rw [past_cons, ih, offset_step, List.length_cons]
      omega

end Place

/-- A reported point of a file. Coordinates are 32-bit words. -/
structure Position where
  offset : UInt32
  line : UInt32
  column : UInt32
  file : String
  deriving DecidableEq, Repr

namespace Position

/-- The file, line and column of a position, as diagnostics and token listings show them. -/
def text (position : Position) : String :=
  position.file ++ ": " ++ Nat.repr position.line.toNat ++ ", " ++ Nat.repr position.column.toNat

end Position

/-- Report a place of the given file. -/
def Place.inFile (place : Place) (file : String) : Position where
  offset := .ofNat place.offset
  line := .ofNat place.line
  column := .ofNat place.column
  file := file

/-- The characters from `start` up to, and not including, `stop`. -/
structure Span where
  start : Position
  stop : Position
  deriving DecidableEq, Repr

end Scriptlet
