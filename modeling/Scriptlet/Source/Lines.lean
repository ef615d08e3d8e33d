/-!
# Lines of a source text

Lines are the pieces between line feeds, numbered from one. A carriage return before the line feed
belongs to the line break and is not part of the line.

Lines are shown without the white space at their end. White space is meant in the sense of the
Unicode property of that name, which is wider than what separates tokens.
-/

namespace Scriptlet.Text

/-- The Unicode property White_Space. -/
def isBlank (character : Char) : Bool :=
  let code := character.toNat
  (0x9 ≤ code && code ≤ 0xD) || code == 0x20 || code == 0x85 || code == 0xA0 ||
    code == 0x1680 || (0x2000 ≤ code && code ≤ 0x200A) || code == 0x2028 || code == 0x2029 ||
    code == 0x202F || code == 0x205F || code == 0x3000

/-- A text without the white space at its end. -/
def trimEnd (text : List Char) : List Char :=
  (text.reverse.dropWhile isBlank).reverse

end Scriptlet.Text

namespace Scriptlet.Lines

/-- The pieces of a text between its line feeds. A text without any is one piece. -/
def pieces : List Char → List (List Char)
  | [] => [[]]
  | character :: text =>
      if character = '\n' then
        [] :: pieces text
      else
        match pieces text with
        | [] => [[character]]
        | piece :: others => (character :: piece) :: others

/-- There is always a first piece. -/
theorem pieces_ne_nil (text : List Char) : pieces text ≠ [] := by
  cases text with
  | nil => simp [pieces]
  | cons character text =>
      unfold pieces
      split
      · simp
      · split <;> simp

/-- There is one piece more than there are line feeds. -/
theorem length_pieces (text : List Char) :
    (pieces text).length = text.count '\n' + 1 := by
  induction text with
  | nil => rfl
  | cons character text ih =>
      by_cases feed : character = '\n'
      · simp [pieces, feed, ih]
      · have count : (character :: text).count '\n' = text.count '\n' := by
          simp [feed]
        rw [count, ← ih]
        cases rest : pieces text with
        | nil => exact absurd rest (pieces_ne_nil text)
        | cons piece others => simp [pieces, feed, rest]

/-- Drop one carriage return from the end of a line. -/
def dropReturn (line : List Char) : List Char :=
  if line.getLast? = some '\r' then line.dropLast else line

/-- The line with the given number, without its line break. -/
def line? (source : List Char) (number : Nat) : Option (List Char) :=
  if number = 0 then none else (pieces source)[number - 1]?.map dropReturn

/-- A line exists for the numbers from one to one more than the line feeds. -/
theorem line?_isSome (source : List Char) (number : Nat) :
    (line? source number).isSome = true ↔ 1 ≤ number ∧ number ≤ source.count '\n' + 1 := by
  rw [← length_pieces]
  unfold line?
  split <;> simp <;> omega

end Scriptlet.Lines
