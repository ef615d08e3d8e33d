/-!
# JSON values and their text

The values that syntax trees are written as. Members of an object keep their order, and numbers are
natural numbers, because trees hold no others.

Values are written over several lines: each item of a list and each member of an object stands on a
line of its own, two spaces further in than the brackets around it. Empty lists and objects are
written as their brackets.
-/

namespace Scriptlet

/-- A JSON value. -/
inductive Json where
  | null
  | number (value : Nat)
  | text (value : String)
  | list (items : List Json)
  | object (members : List (String × Json))

namespace Json

/-- A control character without a short escape, as its number in four hexadecimal digits. -/
def controlEscape (character : Char) : List Char :=
  let digits := Nat.toDigits 16 character.toNat
  ['\\', 'u'] ++ List.replicate (4 - digits.length) '0' ++ digits

/-- How a character is written inside a string. All but quotes, backslashes and controls stand for
themselves. -/
def escaped (character : Char) : List Char :=
  if character = '"' then ['\\', '"']
  else if character = '\\' then ['\\', '\\']
  else if character = '\x08' then ['\\', 'b']
  else if character = '\x0C' then ['\\', 'f']
  else if character = '\n' then ['\\', 'n']
  else if character = '\r' then ['\\', 'r']
  else if character = '\t' then ['\\', 't']
  else if character.toNat < 0x20 then controlEscape character
  else [character]

/-- A string between its quotes. -/
def stringText (text : String) : List Char :=
  '"' :: text.toList.flatMap escaped ++ ['"']

/-- The start of a line at this depth. -/
def newLine (depth : Nat) : List Char := '\n' :: List.replicate (2 * depth) ' '

mutual

/-- The text of a value whose brackets stand at this depth, and then the text `after` it. -/
def pretty (depth : Nat) (after : List Char) : Json → List Char
  | .null => 'n' :: 'u' :: 'l' :: 'l' :: after
  | .number value => Nat.toDigits 10 value ++ after
  | .text value => stringText value ++ after
  | .list [] => '[' :: ']' :: after
  | .list (item :: items) =>
      let closing := newLine depth ++ ']' :: after
      let others := prettyItems (depth + 1) closing items
      '[' :: newLine (depth + 1) ++ pretty (depth + 1) others item
  | .object [] => '\x7b' :: '\x7d' :: after
  | .object ((key, value) :: members) =>
      let closing := newLine depth ++ '\x7d' :: after
      let others := prettyMembers (depth + 1) closing members
      '\x7b' :: newLine (depth + 1) ++ stringText key ++ ':' :: ' ' ::
        pretty (depth + 1) others value
  termination_by structural json => json

/-- Further items of a list, and then the text `after` them. -/
def prettyItems (depth : Nat) (after : List Char) : List Json → List Char
  | [] => after
  | item :: items => ',' :: newLine depth ++ pretty depth (prettyItems depth after items) item
  termination_by structural items => items

/-- Further members of an object, and then the text `after` them. -/
def prettyMembers (depth : Nat) (after : List Char) : List (String × Json) → List Char
  | [] => after
  | (key, value) :: members =>
      ',' :: newLine depth ++ stringText key ++ ':' :: ' ' ::
        pretty depth (prettyMembers depth after members) value
  termination_by structural members => members

end

/-- The text of a value. -/
def toText (json : Json) : String := String.ofList (json.pretty 0 [])

end Json

end Scriptlet
