import Scriptlet.Lexeme.Scan

/-!
# String and character literals

Between the quotes of a literal stand units: single characters, and escapes that begin with a
backslash. Escapes are checked and kept as written. A string is any number of units up to the next
double quote, which may lie on a later line; a character literal is exactly one unit.
-/

namespace Scriptlet.Lexeme

/-- What stands at the front of the text inside a literal. -/
inductive Piece where
  /-- One unit. -/
  | unit (text rest : List Char)
  /-- A backslash and more that begin no unit. Only `sequence` is to be blamed. -/
  | wrong (sequence taken rest : List Char)
  /-- The text ends, if only after a backslash. -/
  | ended (taken : List Char)
  deriving DecidableEq, Repr

namespace Piece

/-- Characters that form an escape by themselves after a backslash. -/
def isSimpleEscape (character : Char) : Bool :=
  "bfnrtv\\?a'\"".toList.contains character

/-- How many hexadecimal digits have to follow a letter that is an escape of fixed length. -/
def fixedDigits? (letter : Char) : Option Nat :=
  if letter = 'u' then some 4 else if letter = 'U' then some 8 else none

/-- An escape, given the character after its backslash and the text after that. -/
def escape (letter : Char) (text : List Char) : Piece :=
  if isSimpleEscape letter then
    .unit ['\\', letter] text
  else if letter = 'x' then
    match text.takeWhile isHexDigit with
    | [] => .wrong [letter] ['\\', letter] text
    | digits => .unit ('\\' :: letter :: digits) (text.drop digits.length)
  else if let some count := fixedDigits? letter then
    let digits := (text.take count).takeWhile isHexDigit
    if digits.length = count then
      .unit ('\\' :: letter :: digits) (text.drop digits.length)
    else
      .wrong (letter :: digits) ('\\' :: letter :: digits) (text.drop digits.length)
  else if isOctalDigit letter then
    let digits := (text.take 2).takeWhile isOctalDigit
    .unit ('\\' :: letter :: digits) (text.drop digits.length)
  else
    .wrong [letter] ['\\'] (letter :: text)

/-- The first piece of a text. -/
def first : List Char → Piece
  | [] => .ended []
  | character :: text =>
      if character = '\\' then
        match text with
        | [] => .ended ['\\']
        | letter :: text => escape letter text
      else
        .unit [character] text

/-- The characters that a piece takes and those that it leaves. -/
def parts : Piece → List Char × List Char
  | .unit text rest => (text, rest)
  | .wrong _ taken rest => (taken, rest)
  | .ended taken => (taken, [])

/-- Digits taken off the front of a text and what is left are the text. -/
theorem digits_append (digit : Char → Bool) (count : Nat) (text : List Char) :
    (text.take count).takeWhile digit ++
        text.drop ((text.take count).takeWhile digit).length = text :=
  (List.prefix_iff_eq_append.mp
    ((List.takeWhile_prefix digit).trans (List.take_prefix count text)))

/-- The parts of an escape are its backslash and the text after it. -/
theorem parts_escape (letter : Char) (text : List Char) :
    (escape letter text).parts.1 ++ (escape letter text).parts.2 = '\\' :: letter :: text := by
  unfold escape
  split
  next => rfl
  next =>
    split
    next =>
      split
      next => rfl
      next digits _ run =>
        have front : text.takeWhile isHexDigit <+: text := List.takeWhile_prefix isHexDigit
        simpa [parts] using List.prefix_iff_eq_append.mp front
    next =>
      split
      next count _ =>
        dsimp only
        have whole := digits_append isHexDigit count text
        split <;> simpa [parts] using whole
      next =>
        split
        next => simpa [parts] using digits_append isOctalDigit 2 text
        next => rfl

/-- A piece loses nothing. -/
theorem parts_first (text : List Char) :
    (first text).parts.1 ++ (first text).parts.2 = text := by
  unfold first
  split
  next => rfl
  next character text =>
    split
    next backslash =>
      subst backslash
      split
      next => rfl
      next letter text => exact parts_escape letter text
    next => rfl

/-- A unit of an escape takes its backslash. -/
theorem escape_unit_ne_nil {letter : Char} {text taken rest : List Char}
    (unit : escape letter text = .unit taken rest) : taken ≠ [] := by
  rintro rfl
  unfold escape at unit
  dsimp only at unit
  repeat' split at unit
  all_goals simp at unit

/-- A unit is never empty. -/
theorem unit_ne_nil {text taken rest : List Char} (unit : first text = .unit taken rest) :
    taken ≠ [] := by
  unfold first at unit
  split at unit
  next => injection unit
  next character text =>
    split at unit
    next =>
      split at unit
      next => injection unit
      next letter text => exact escape_unit_ne_nil unit
    next =>
      injection unit with taken_eq
      subst taken_eq
      simp

/-- A unit and what follows it are the text. -/
theorem append_of_unit {text taken rest : List Char} (unit : first text = .unit taken rest) :
    taken ++ rest = text := by
  have whole := parts_first text
  rwa [unit] at whole

/-- What follows a unit is shorter than the text. -/
theorem rest_lt_of_unit {text taken rest : List Char} (unit : first text = .unit taken rest) :
    rest.length < text.length := by
  have nonempty := List.length_pos_iff.mpr (unit_ne_nil unit)
  rw [← append_of_unit unit, List.length_append]
  omega

end Piece

/-- The inside of a literal, from after its opening quote. -/
inductive Body where
  /-- Units up to the closing quote, and the text after the quote. -/
  | closed (text rest : List Char)
  /-- Units, and then a backslash that begins no unit. -/
  | wrong (text sequence taken rest : List Char)
  /-- The text ends before the closing quote. -/
  | ended (taken : List Char)
  deriving DecidableEq, Repr

namespace Body

/-- The body with one more unit in front of it. -/
def after (unit : List Char) : Body → Body
  | .closed text rest => .closed (unit ++ text) rest
  | .wrong text sequence taken rest => .wrong (unit ++ text) sequence taken rest
  | .ended taken => .ended (unit ++ taken)

/-- Read units up to the closing quote. -/
def read (quote : Char) (text : List Char) : Body :=
  if text.head? = some quote then
    .closed [] text.tail
  else
    match _ : Piece.first text with
    | .unit unit rest => (read quote rest).after unit
    | .wrong sequence taken rest => .wrong [] sequence taken rest
    | .ended taken => .ended taken
termination_by text.length
decreasing_by exact Piece.rest_lt_of_unit (by assumption)

/-- The whole text behind a body, its closing quote included. -/
def whole (quote : Char) : Body → List Char
  | .closed text rest => text ++ quote :: rest
  | .wrong text _ taken rest => text ++ (taken ++ rest)
  | .ended taken => taken

@[simp] theorem whole_after (quote : Char) (unit : List Char) (body : Body) :
    (body.after unit).whole quote = unit ++ body.whole quote := by
  cases body <;> simp [after, whole]

/-- Reading a body loses nothing. -/
theorem whole_read (quote : Char) (text : List Char) : (read quote text).whole quote = text := by
  fun_induction read quote text with
  | case1 text opened =>
      cases text with
      | nil => simp at opened
      | cons character text => simpa [whole, eq_comm] using opened
  | case2 text _ unit rest equal ih =>
      rw [whole_after, ih]
      exact Piece.append_of_unit equal
  | case3 text _ sequence taken rest equal =>
      have parts := Piece.parts_first text
      rwa [equal] at parts
  | case4 text _ taken equal =>
      have parts := Piece.parts_first text
      rw [equal] at parts
      simpa [Piece.parts, whole] using parts

end Body

/-- A literal whose closing quote is missing. The fault is at the end of the input. -/
def unterminated (quote : Char) (taken : List Char) : Scan :=
  ⟨taken, [], .fault (.unterminatedLiteral quote) taken.length⟩

/-- A literal with a wrong escape. The fault is at the backslash, after the characters `before`. -/
def wrongEscape (before sequence taken rest : List Char) : Scan :=
  ⟨before ++ taken, rest, .fault (.invalidEscape (String.ofList sequence)) before.length⟩

/-- A string literal, given the text after its opening quote. -/
def stringLiteral (text : List Char) : Scan :=
  match Body.read '"' text with
  | .closed value rest => ⟨'"' :: value ++ ['"'], rest, .token .stringLiteral value⟩
  | .wrong value sequence taken rest => wrongEscape ('"' :: value) sequence taken rest
  | .ended taken => unterminated '"' ('"' :: taken)

/-- A character literal, given the text after its opening quote. A literal of the wrong length is
read as far as the first character too many. -/
def characterLiteral (text : List Char) : Scan :=
  if text.head? = some '\'' then
    .faulty (.invalidCharacterLiteral "") ['\''] text
  else
    match Piece.first text with
    | .ended taken => unterminated '\'' ('\'' :: taken)
    | .wrong sequence taken rest => wrongEscape ['\''] sequence taken rest
    | .unit value [] => unterminated '\'' ('\'' :: value)
    | .unit value (next :: rest) =>
        if next = '\'' then
          ⟨'\'' :: value ++ ['\''], rest, .token .characterLiteral value⟩
        else
          .faulty (.invalidCharacterLiteral (String.ofList (value ++ [next])))
            ('\'' :: value ++ [next]) rest

theorem unterminated_of {quote : Char} {taken text : List Char} (split : taken = text) :
    (unterminated quote taken).Of text where
  split := by simp [unterminated, split]
  progress _ _ token := by simp [unterminated] at token
  within _ _ fault := by
    simp only [unterminated, Reading.fault.injEq] at fault
    exact Nat.le_of_eq fault.2.symm

theorem wrongEscape_of {before sequence taken rest text : List Char}
    (split : before ++ (taken ++ rest) = text) :
    (wrongEscape before sequence taken rest).Of text where
  split := by simpa [wrongEscape] using split
  progress _ _ token := by simp [wrongEscape] at token
  within _ _ fault := by
    simp only [wrongEscape, Reading.fault.injEq] at fault
    simp [wrongEscape, ← fault.2]

theorem stringLiteral_of (text : List Char) : (stringLiteral text).Of ('"' :: text) := by
  have whole := Body.whole_read '"' text
  unfold stringLiteral
  split
  next value rest closed =>
    rw [closed] at whole
    refine ⟨?_, by simp, by simp⟩
    simpa [Body.whole] using whole
  next value sequence taken rest wrong =>
    rw [wrong] at whole
    exact wrongEscape_of (congrArg ('"' :: ·) whole)
  next taken ended =>
    rw [ended] at whole
    exact unterminated_of (congrArg ('"' :: ·) whole)

theorem characterLiteral_of (text : List Char) :
    (characterLiteral text).Of ('\'' :: text) := by
  have parts := Piece.parts_first text
  unfold characterLiteral
  split
  next => exact Scan.faulty_of rfl
  next =>
    split
    next taken ended =>
      rw [ended] at parts
      exact unterminated_of (by simpa [Piece.parts] using parts)
    next sequence taken rest wrong =>
      rw [wrong] at parts
      exact wrongEscape_of (congrArg ('\'' :: ·) parts)
    next value unit =>
      rw [unit] at parts
      exact unterminated_of (by simpa [Piece.parts] using parts)
    next value next rest unit =>
      rw [unit] at parts
      split
      next quote =>
        refine ⟨?_, by simp, by simp⟩
        simpa [Piece.parts, quote] using parts
      next => exact Scan.faulty_of (by simpa [Piece.parts] using parts)

end Scriptlet.Lexeme
