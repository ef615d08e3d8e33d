import Scriptlet.Proofs.Lexing.Slice

/-!
# Units of quoted literals

What may stand between two quotes is given as a grammar of units: plain characters and escapes
(`Escape`, `LiteralUnit`).  A string is any row of units and a character literal is one of them.
Literals are accepted exactly as this grammar says, and a literal that is not accepted is blamed by
where its units end (`Cursor.nextToken_quoted`).

The grammar can be taken apart in several ways, because an escape may leave digits to stand for
themselves, while a scan gives them all to the escape.  Rows of units are therefore compared up to
the next quote or backslash, where both have to end (`Body.read_units`).
-/

namespace Scriptlet

namespace Lexeme

/-! ## The grammar -/

/-- The escapes of a literal.  Some have any number of digits, and some a fixed number. -/
inductive Escape : List Char → Prop where
  | simple (letter : Char)
      (listed : letter ∈ ['b', 'f', 'n', 'r', 't', 'v', '\\', '?', 'a', '\'', '"']) :
      Escape ['\\', letter]
  | hex (digits : List Char) (nonempty : digits ≠ [])
      (all : ∀ digit ∈ digits, isHexDigit digit = true) : Escape ('\\' :: 'x' :: digits)
  | fixed (letter : Char) (digits : List Char)
      (count : letter = 'u' ∧ digits.length = 4 ∨ letter = 'U' ∧ digits.length = 8)
      (all : ∀ digit ∈ digits, isHexDigit digit = true) : Escape ('\\' :: letter :: digits)
  | octal (digits : List Char) (nonempty : digits ≠ []) (few : digits.length ≤ 3)
      (all : ∀ digit ∈ digits, isOctalDigit digit = true) : Escape ('\\' :: digits)

/-- What stands between such quotes: a character that is neither the quote nor a backslash, or an
escape. -/
inductive LiteralUnit (quote : Char) : List Char → Prop where
  | plain (character : Char) (unquoted : character ≠ quote) (unescaped : character ≠ '\\') :
      LiteralUnit quote [character]
  | escape (text : List Char) (isEscape : Escape text) : LiteralUnit quote text

/-- Units in a row. -/
inductive Units (quote : Char) : List Char → Prop where
  | nil : Units quote []
  | cons {unit others : List Char} (first : LiteralUnit quote unit) (more : Units quote others) :
      Units quote (unit ++ others)

/-- The quote closes the text: units stand before it, and anything behind it. -/
def Closes (quote : Char) (text value rest : List Char) : Prop :=
  Units quote value ∧ text = value ++ quote :: rest

/-- The text ends before a closing quote, behind units or behind a backslash after them. -/
def Unclosed (quote : Char) (text : List Char) : Prop :=
  Units quote text ∨ ∃ front, Units quote front ∧ text = front ++ ['\\']

/-- The text has units in front and then a backslash that begins none, with more behind it. -/
def WrongBehind (quote : Char) (text front : List Char) : Prop :=
  Units quote front ∧ ∃ letter others, text = front ++ '\\' :: letter :: others ∧
    ∀ unit, LiteralUnit quote unit → ¬ unit <+: '\\' :: letter :: others

variable {quote character letter : Char}
  {text unit others rest taken sequence front value : List Char}

theorem Escape.exists_letter (isEscape : Escape unit) :
    ∃ letter others, unit = '\\' :: letter :: others := by
  cases isEscape with
  | simple letter => exact ⟨letter, [], rfl⟩
  | hex digits => exact ⟨'x', digits, rfl⟩
  | fixed letter digits => exact ⟨letter, digits, rfl⟩
  | octal digits nonempty =>
      obtain ⟨digit, others, rfl⟩ := List.exists_cons_of_ne_nil nonempty
      exact ⟨digit, others, rfl⟩

/-- Behind characters that are no backslashes, a row of units is still one. -/
theorem Units.drop {digits : List Char} (units : Units quote (digits ++ text))
    (unescaped : ∀ digit ∈ digits, digit ≠ '\\') : Units quote text := by
  induction digits with
  | nil => exact units
  | cons digit digits ih =>
      refine ih ?_ fun other among => unescaped other (.tail _ among)
      generalize whole : digit :: digits ++ text = all at units
      cases units with
      | nil => cases whole
      | cons first more =>
          cases first with
          | plain =>
              cases whole
              exact more
          | escape _ isEscape =>
              obtain ⟨letter, others, rfl⟩ := isEscape.exists_letter
              have backslash := (List.cons.inj whole).1
              exact absurd backslash (unescaped digit List.mem_cons_self)

/-! ## Pieces -/

theorem isHexDigit_of_isOctalDigit (octal : isOctalDigit character = true) :
    isHexDigit character = true := by
  simp only [isOctalDigit, isHexDigit, Char.isDigit, Bool.and_eq_true, Bool.or_eq_true,
    decide_eq_true_iff] at octal ⊢
  have nine : character ≤ '9' := Nat.le_trans octal.2 (by decide)
  exact .inl (.inl ⟨octal.1, nine⟩)

namespace Piece

theorem isSimpleEscape_iff :
    isSimpleEscape letter = true ↔
      letter ∈ ['b', 'f', 'n', 'r', 't', 'v', '\\', '?', 'a', '\'', '"'] := by
  rw [isSimpleEscape, List.contains_iff_mem]
  exact Iff.rfl

theorem fixedDigits?_eq_some_iff {count : Nat} :
    fixedDigits? letter = some count ↔ letter = 'u' ∧ count = 4 ∨ letter = 'U' ∧ count = 8 := by
  unfold fixedDigits?
  grind

/-- An octal digit behind a backslash makes no other escape. -/
theorem escape_of_isOctalDigit (octal : isOctalDigit letter = true) (text : List Char) :
    escape letter text =
      .unit ('\\' :: letter :: (text.take 2).takeWhile isOctalDigit)
        (text.drop ((text.take 2).takeWhile isOctalDigit).length) := by
  have unlike : ∀ other, isOctalDigit other = false → letter ≠ other := by
    rintro other rejected rfl
    cases octal.symm.trans rejected
  have simple : isSimpleEscape letter = false := by
    rw [← Bool.not_eq_true, isSimpleEscape_iff]
    intro listed
    have rejected : ['b', 'f', 'n', 'r', 't', 'v', '\\', '?', 'a', '\'', '"'].any isOctalDigit =
        false := by decide
    exact List.any_eq_false.mp rejected letter listed octal
  simp [escape, simple, fixedDigits?, unlike 'x' rfl, unlike 'u' rfl, unlike 'U' rfl, octal]

/-- An escape is read as far as it goes, and only digits can belong to more of it. -/
theorem first_of_escape (isEscape : Escape unit) (rest : List Char) :
    ∃ digits others, rest = digits ++ others ∧ (∀ digit ∈ digits, isHexDigit digit = true) ∧
      first (unit ++ rest) = .unit (unit ++ digits) others := by
  cases isEscape with
  | simple letter listed =>
      refine ⟨[], rest, rfl, by simp, ?_⟩
      simp [first, escape, isSimpleEscape_iff.mpr listed]
  | hex digits nonempty all =>
      refine ⟨rest.takeWhile isHexDigit, rest.dropWhile isHexDigit,
        List.takeWhile_append_dropWhile.symm, List.all_eq_true.mp List.all_takeWhile, ?_⟩
      obtain ⟨digit, digits, rfl⟩ := List.exists_cons_of_ne_nil nonempty
      have run : (digit :: digits ++ rest).takeWhile isHexDigit =
          digit :: (digits ++ rest.takeWhile isHexDigit) := List.takeWhile_append_of_pos all
      have left : (digit :: digits ++ rest).drop
          (digit :: (digits ++ rest.takeWhile isHexDigit)).length = rest.dropWhile isHexDigit := by
        have whole : digit :: digits ++ rest =
            digit :: (digits ++ rest.takeWhile isHexDigit) ++ rest.dropWhile isHexDigit := by
          simp [List.takeWhile_append_dropWhile]
        rw [whole, List.drop_left]
      have plain : isSimpleEscape 'x' = false := by decide
      simp only [List.cons_append, first, escape, plain, reduceIte] at run left ⊢
      simp only [run, left]
      rfl
  | fixed letter digits count all =>
      refine ⟨[], rest, rfl, by simp, ?_⟩
      have fixed := fixedDigits?_eq_some_iff.mpr count
      have letters : letter ≠ 'x' ∧ isSimpleEscape letter = false := by
        rcases count with ⟨rfl, _⟩ | ⟨rfl, _⟩ <;> decide
      obtain ⟨other, plain⟩ := letters
      have run : digits.takeWhile isHexDigit = digits := by
        simpa using @List.takeWhile_append_of_pos _ _ _ [] all
      simp [first, escape, fixed, other, plain, run]
  | octal digits nonempty few all =>
      obtain ⟨letter, digits, rfl⟩ := List.exists_cons_of_ne_nil nonempty
      have octal := all letter List.mem_cons_self
      have run : ((digits ++ rest).take 2).takeWhile isOctalDigit =
          digits ++ (rest.take (2 - digits.length)).takeWhile isOctalDigit := by
        have fits : digits.length ≤ 2 := Nat.le_of_succ_le_succ few
        rw [List.take_append, List.take_of_length_le fits,
          List.takeWhile_append_of_pos fun digit among => all digit (.tail _ among)]
      refine ⟨_, _, (digits_append isOctalDigit (2 - digits.length) rest).symm, ?_, ?_⟩
      · intro digit among
        exact isHexDigit_of_isOctalDigit (List.all_eq_true.mp List.all_takeWhile digit among)
      · simp [first, escape_of_isOctalDigit octal, run]

/-- A unit is read whole and alone, unless a digit follows it. -/
theorem first_of_unit (isUnit : LiteralUnit quote unit)
    (stops : ∀ character ∈ rest.head?, isHexDigit character = false) :
    first (unit ++ rest) = .unit unit rest := by
  cases isUnit with
  | plain character _ unescaped => simp [first, unescaped]
  | escape _ isEscape =>
      obtain ⟨digits, others, rfl, all, read⟩ := first_of_escape isEscape rest
      cases digits with
      | nil => simpa using read
      | cons digit digits =>
          have accepted := all digit List.mem_cons_self
          cases accepted.symm.trans (stops digit rfl)

/-- No longer unit stands at the front of a text than the one that is read. -/
theorem length_le_of_first (read : first text = .unit taken rest) (isUnit : LiteralUnit quote unit)
    (begins : unit <+: text) : unit.length ≤ taken.length := by
  obtain ⟨behind, rfl⟩ := begins
  cases isUnit with
  | plain character _ unescaped =>
      have alone : first ([character] ++ behind) = .unit [character] behind := by
        simp [first, unescaped]
      cases alone.symm.trans read
      exact Nat.le_refl _
  | escape _ isEscape =>
      obtain ⟨digits, _, _, _, longer⟩ := first_of_escape isEscape behind
      cases longer.symm.trans read
      rw [List.length_append]
      exact Nat.le_add_right _ _

/-- Only escapes are read as units behind a backslash. -/
theorem escape_sound (read : escape letter text = .unit unit rest) : Escape unit := by
  revert read
  fun_cases escape letter text with
  | case1 simple =>
      rintro ⟨⟩
      exact .simple letter (isSimpleEscape_iff.mp simple)
  | case2 | case5 | case7 => rintro ⟨⟩
  | case3 _ hexadecimal nonempty =>
      rintro ⟨⟩
      subst hexadecimal
      exact .hex _ nonempty (List.all_eq_true.mp List.all_takeWhile)
  | case4 _ _ count fixed digits enough =>
      rintro ⟨⟩
      rw [← enough] at fixed
      exact .fixed letter _ (fixedDigits?_eq_some_iff.mp fixed)
        (List.all_eq_true.mp List.all_takeWhile)
  | case6 _ _ octal digits _ =>
      rintro ⟨⟩
      have few : digits.length ≤ 2 :=
        Nat.le_trans (List.takeWhile_prefix isOctalDigit).length_le (List.length_take_le 2 text)
      refine .octal (letter :: digits) (by simp) (Nat.succ_le_succ few) ?_
      exact List.forall_mem_cons.mpr ⟨octal, List.all_eq_true.mp List.all_takeWhile⟩

theorem escape_ne_ended (letter : Char) (text taken : List Char) :
    escape letter text ≠ .ended taken := by
  intro ended
  unfold escape at ended
  dsimp only at ended
  repeat' split at ended
  all_goals cases ended

/-- What is read where the quote does not stand is a unit. -/
theorem literalUnit_of_first (within : text.head? ≠ some quote)
    (read : first text = .unit unit rest) : LiteralUnit quote unit := by
  cases text with
  | nil => cases read
  | cons character text =>
      simp only [first] at read
      split at read
      next =>
        cases text with
        | nil => cases read
        | cons letter text => exact .escape unit (escape_sound read)
      next unescaped =>
        cases read
        exact .plain character (by simpa using within) unescaped

theorem of_ended (read : first text = .ended taken) :
    text = taken ∧ (text = [] ∨ text = ['\\']) := by
  cases text with
  | nil =>
      cases read
      exact ⟨rfl, .inl rfl⟩
  | cons character text =>
      simp only [first] at read
      split at read
      next backslash =>
        subst backslash
        cases text with
        | nil =>
            cases read
            exact ⟨rfl, .inr rfl⟩
        | cons letter text => exact absurd read (escape_ne_ended letter text taken)
      next => cases read

/-- A piece is wrong exactly if a backslash stands there with more behind it, and begins no unit. -/
theorem first_wrong_iff :
    (∃ sequence taken rest, first text = .wrong sequence taken rest) ↔
      WrongBehind quote text [] := by
  constructor
  · rintro ⟨sequence, taken, rest, wrong⟩
    have none : ∀ unit, LiteralUnit quote unit → ¬ unit <+: text := by
      rintro unit isUnit ⟨others, rfl⟩
      cases isUnit with
      | plain character _ unescaped => simp [first, unescaped] at wrong
      | escape _ isEscape =>
          obtain ⟨digits, others, _, _, read⟩ := first_of_escape isEscape others
          cases wrong.symm.trans read
    cases text with
    | nil => cases wrong
    | cons character text =>
        simp only [first] at wrong
        split at wrong
        next backslash =>
          subst backslash
          cases text with
          | nil => cases wrong
          | cons letter others => exact ⟨.nil, letter, others, rfl, none⟩
        next => cases wrong
  · rintro ⟨_, letter, others, rfl, none⟩
    cases read : first ([] ++ '\\' :: letter :: others) with
    | wrong sequence taken rest => exact ⟨sequence, taken, rest, rfl⟩
    | ended taken => exact absurd read (escape_ne_ended letter others taken)
    | unit unit rest =>
        have isUnit : LiteralUnit quote unit := .escape unit (escape_sound read)
        exact absurd ⟨rest, append_of_unit read⟩ (none unit isUnit)

end Piece

/-! ## Bodies -/

namespace Body

theorem after_nil (body : Body) : body.after [] = body := by
  cases body <;> simp [after]

theorem after_after (first second : List Char) (body : Body) :
    (body.after second).after first = body.after (first ++ second) := by
  cases body <;> simp [after]

/-- Where the quote does not stand, the first piece decides. -/
theorem read_eq (within : text.head? ≠ some quote) :
    read quote text =
      match Piece.first text with
      | .unit unit rest => (read quote rest).after unit
      | .wrong sequence taken rest => .wrong [] sequence taken rest
      | .ended taken => .ended taken := by
  rw [read, if_neg within]
  split <;> simp only [*]

theorem read_of_unit (within : text.head? ≠ some quote)
    (first : Piece.first text = .unit unit rest) :
    read quote text = (read quote rest).after unit := by
  rw [read_eq within, first]

/-- Digits at the front of a row do not reach beyond it if no digit stands there. -/
theorem exists_tail_of_digits {digits left : List Char} (split : others ++ rest = digits ++ left)
    (all : ∀ digit ∈ digits, isHexDigit digit = true)
    (stops : ∀ character ∈ rest.head?, isHexDigit character = false) :
    ∃ tail, others = digits ++ tail ∧ left = tail ++ rest := by
  rcases List.append_eq_append_iff.mp split with ⟨extra, rfl, rfl⟩ | found
  · cases extra with
    | nil => exact ⟨[], by simp, rfl⟩
    | cons digit extra =>
        have accepted := all digit (List.mem_append_right others List.mem_cons_self)
        cases accepted.symm.trans (stops digit rfl)
  · exact found

/-- A row of units is read as it stands, up to a character that is no digit. -/
theorem read_units (proper : quote ≠ '\\') (units : Units quote front) (rest : List Char)
    (stops : ∀ character ∈ rest.head?, isHexDigit character = false) :
    read quote (front ++ rest) = (read quote rest).after front := by
  -- By length: the digits that an escape takes are units of the row that are not read as such.
  induction size : front.length using Nat.strongRecOn generalizing front with
  | ind size ih =>
      subst size
      cases units with
      | nil => rw [List.nil_append, after_nil]
      | @cons unit others first more =>
          cases first with
          | plain character unquoted unescaped =>
              have within : ([character] ++ others ++ rest).head? ≠ some quote := by
                simpa using unquoted
              have piece : Piece.first ([character] ++ others ++ rest) =
                  .unit [character] (others ++ rest) := by
                simp [Piece.first, unescaped]
              rw [read_of_unit within piece, ih others.length (by simp) more rfl, after_after]
          | escape _ isEscape =>
              obtain ⟨digits, left, split, all, piece⟩ :=
                Piece.first_of_escape isEscape (others ++ rest)
              obtain ⟨tail, rfl, rfl⟩ := exists_tail_of_digits split all stops
              have unescaped : ∀ digit ∈ digits, digit ≠ '\\' := by
                rintro digit among rfl
                cases all '\\' among
              obtain ⟨letter, letters, rfl⟩ := isEscape.exists_letter
              have within : ('\\' :: letter :: letters ++ (digits ++ tail ++ rest)).head? ≠
                  some quote := by
                simpa using proper.symm
              have shorter : tail.length <
                  ('\\' :: letter :: letters ++ (digits ++ tail)).length := by
                simp only [List.length_append, List.length_cons]
                omega
              rw [List.append_assoc, read_of_unit within piece,
                ih tail.length shorter (more.drop unescaped) rfl, after_after, List.append_assoc]

theorem read_closes (proper : quote ≠ '\\') (digitless : isHexDigit quote = false)
    (closes : Closes quote text value rest) : read quote text = .closed value rest := by
  obtain ⟨units, rfl⟩ := closes
  rw [read_units proper units (quote :: rest) (by simpa using digitless), read]
  simp [after]

theorem read_unclosed (proper : quote ≠ '\\') (unclosed : Unclosed quote text) :
    read quote text = .ended text := by
  rcases unclosed with units | ⟨front, units, rfl⟩
  · have nothing : read quote [] = .ended [] := read_eq (by simp)
    have whole := read_units proper units [] (by simp)
    rw [List.append_nil] at whole
    rw [whole, nothing]
    simp [after]
  · rw [read_units proper units ['\\'] (by simp; decide), read_eq (by simpa using proper.symm)]
    simp [Piece.first, after]

theorem read_wrong (proper : quote ≠ '\\') (wrong : WrongBehind quote text front) :
    ∃ sequence taken rest, read quote text = .wrong front sequence taken rest := by
  obtain ⟨units, letter, others, rfl, none⟩ := wrong
  obtain ⟨sequence, taken, rest, piece⟩ :=
    Piece.first_wrong_iff.mpr ⟨.nil, letter, others, rfl, none⟩
  rw [List.nil_append] at piece
  refine ⟨sequence, taken, rest, ?_⟩
  rw [read_units proper units ('\\' :: letter :: others) (by simp; decide),
    read_eq (by simpa using proper.symm), piece]
  simp [after]

end Body

theorem Closes.unique {other : List Char} (proper : quote ≠ '\\')
    (digitless : isHexDigit quote = false) (closes : Closes quote text value rest)
    (again : Closes quote text other others) : value = other := by
  have same := (Body.read_closes proper digitless closes).symm.trans
    (Body.read_closes proper digitless again)
  exact (Body.closed.inj same).1

theorem WrongBehind.unique {other : List Char} (proper : quote ≠ '\\')
    (wrong : WrongBehind quote text front) (again : WrongBehind quote text other) :
    other = front := by
  obtain ⟨_, _, _, read⟩ := Body.read_wrong proper wrong
  obtain ⟨_, _, _, reread⟩ := Body.read_wrong proper again
  exact (Body.wrong.inj (reread.symm.trans read)).1

/-- A text closes, or it ends before that, or it goes wrong. -/
theorem closes_or_unclosed_or_wrong (quote : Char) (text : List Char) :
    (∃ value rest, Closes quote text value rest) ∨ Unclosed quote text ∨
      ∃ front, WrongBehind quote text front := by
  fun_induction Body.read quote text with
  | case1 text opened =>
      refine .inl ⟨[], text.tail, .nil, ?_⟩
      cases text with
      | nil => cases opened
      | cons character text =>
          cases opened
          rfl
  | case2 text within unit rest first ih =>
      have isUnit := Piece.literalUnit_of_first within first
      rw [← Piece.append_of_unit first]
      rcases ih with ⟨value, behind, units, rfl⟩ | (units | ⟨front, units, rfl⟩) |
        ⟨front, units, letter, others, rfl, none⟩
      · exact .inl ⟨unit ++ value, behind, .cons isUnit units, by simp⟩
      · exact .inr (.inl (.inl (.cons isUnit units)))
      · exact .inr (.inl (.inr ⟨unit ++ front, .cons isUnit units, by simp⟩))
      · exact .inr (.inr ⟨unit ++ front, .cons isUnit units, letter, others, by simp, none⟩)
  | case3 text within sequence taken rest first =>
      exact .inr (.inr ⟨[], Piece.first_wrong_iff.mp ⟨sequence, taken, rest, first⟩⟩)
  | case4 text within taken first =>
      rcases (Piece.of_ended first).2 with rfl | rfl
      · exact .inr (.inl (.inl .nil))
      · exact .inr (.inl (.inr ⟨[], .nil, rfl⟩))

/-! ## Literals -/

theorem stringLiteral_of_closes (closes : Closes '"' text value rest) :
    stringLiteral text = ⟨'"' :: value ++ ['"'], rest, .token .stringLiteral value⟩ := by
  rw [stringLiteral, Body.read_closes (by decide) (by decide) closes]

theorem stringLiteral_of_unclosed (unclosed : Unclosed '"' text) :
    stringLiteral text = unterminated '"' ('"' :: text) := by
  rw [stringLiteral, Body.read_unclosed (by decide) unclosed]

theorem stringLiteral_of_wrong (wrong : WrongBehind '"' text front) :
    ∃ sequence taken rest, stringLiteral text = wrongEscape ('"' :: front) sequence taken rest := by
  obtain ⟨sequence, taken, rest, read⟩ := Body.read_wrong (by decide) wrong
  refine ⟨sequence, taken, rest, ?_⟩
  rw [stringLiteral, read]

/-- The text holds one unit and its closing quote. -/
def ClosesUnit (text value rest : List Char) : Prop :=
  LiteralUnit '\'' value ∧ text = value ++ '\'' :: rest

/-- The text ends before the quote that closes a character literal. -/
def UnclosedUnit (text : List Char) : Prop :=
  text = [] ∨ text = ['\\'] ∨ LiteralUnit '\'' text

/-- The text has nothing before its closing quote, or it has the longest unit that it can have, and
then not the quote. -/
def Misfits (text shown : List Char) : Prop :=
  text.head? = some '\'' ∧ shown = [] ∨
    ∃ unit next rest, LiteralUnit '\'' unit ∧
      (∀ other, LiteralUnit '\'' other → other <+: text → other.length ≤ unit.length) ∧
      next ≠ '\'' ∧ text = unit ++ next :: rest ∧ shown = unit ++ [next]

theorem LiteralUnit.head_ne (isUnit : LiteralUnit quote unit) (proper : quote ≠ '\\')
    (rest : List Char) : (unit ++ rest).head? ≠ some quote := by
  cases isUnit with
  | plain character unquoted => simpa using unquoted
  | escape _ isEscape =>
      obtain ⟨letter, others, rfl⟩ := isEscape.exists_letter
      simpa using proper.symm

theorem characterLiteral_of_closes (closes : ClosesUnit text value rest) :
    characterLiteral text = ⟨'\'' :: value ++ ['\''], rest, .token .characterLiteral value⟩ := by
  obtain ⟨isUnit, rfl⟩ := closes
  have first : Piece.first (value ++ '\'' :: rest) = .unit value ('\'' :: rest) :=
    Piece.first_of_unit isUnit (by simp; decide)
  rw [characterLiteral, if_neg (isUnit.head_ne (by decide) _), first]
  simp

theorem characterLiteral_of_unclosed (unclosed : UnclosedUnit text) :
    characterLiteral text = unterminated '\'' ('\'' :: text) := by
  rcases unclosed with rfl | rfl | isUnit
  · rfl
  · rfl
  · have within := isUnit.head_ne (by decide) []
    have first := @Piece.first_of_unit _ _ [] isUnit (by simp)
    rw [List.append_nil] at within first
    rw [characterLiteral, if_neg within, first]

theorem characterLiteral_of_wrong (wrong : WrongBehind '\'' text []) :
    ∃ sequence taken rest, characterLiteral text = wrongEscape ['\''] sequence taken rest := by
  obtain ⟨sequence, taken, rest, first⟩ := Piece.first_wrong_iff.mpr wrong
  refine ⟨sequence, taken, rest, ?_⟩
  obtain ⟨_, letter, others, rfl, _⟩ := wrong
  rw [characterLiteral, if_neg (by simp), first]

/-- A text holds one unit and the closing quote, or it ends before that, or it begins with a wrong
escape, or what it holds does not fit. -/
theorem characterLiteral_cases (text : List Char) :
    (∃ value rest, ClosesUnit text value rest) ∨ UnclosedUnit text ∨ WrongBehind '\'' text [] ∨
      ∃ shown taken rest, Misfits text shown ∧
        characterLiteral text =
          .faulty (.invalidCharacterLiteral (String.ofList shown)) taken rest := by
  by_cases within : text.head? = some '\''
  · refine .inr (.inr (.inr ⟨[], ['\''], text, .inl ⟨within, rfl⟩, ?_⟩))
    rw [characterLiteral, if_pos within]
  cases first : Piece.first text with
  | ended taken =>
      rcases (Piece.of_ended first).2 with nothing | backslash
      · exact .inr (.inl (.inl nothing))
      · exact .inr (.inl (.inr (.inl backslash)))
  | wrong sequence taken rest =>
      exact .inr (.inr (.inl (Piece.first_wrong_iff.mp ⟨sequence, taken, rest, first⟩)))
  | unit value behind =>
      have isUnit := Piece.literalUnit_of_first within first
      have whole := Piece.append_of_unit first
      cases behind with
      | nil =>
          rw [List.append_nil] at whole
          exact .inr (.inl (.inr (.inr (whole ▸ isUnit))))
      | cons next rest =>
          by_cases quote : next = '\''
          · subst quote
            exact .inl ⟨value, rest, isUnit, whole.symm⟩
          · refine .inr (.inr (.inr ⟨value ++ [next], '\'' :: value ++ [next], rest,
              .inr ⟨value, next, rest, isUnit, fun _ => Piece.length_le_of_first first, quote,
                whole.symm, rfl⟩, ?_⟩))
            rw [characterLiteral, if_neg within, first]
            simp [quote]

end Lexeme

open Lexeme

variable {text value rest : List Char} {place : Place} {file : String}

/-- What is read of a quoted literal with this value, and where that leaves the cursor. -/
def Cursor.literal (kind : TokenKind) (quote : Char) (value rest : List Char) (place : Place)
    (file : String) : Except Diagnostic Token × Cursor :=
  let after : Cursor := ⟨rest, place.past (quote :: value ++ [quote]), file⟩
  (.ok ⟨kind, String.ofList value, ⟨place.inFile file, after.position⟩⟩, after)

/-- What comes of the text behind the opening quote of a string. -/
structure ReadsString (text : List Char) (place : Place) (file : String)
    (outcome : Except Diagnostic Token × Cursor) : Prop where
  token : ∀ value rest, Closes '"' text value rest ↔
    outcome = Cursor.literal .stringLiteral '"' value rest place file
  unique : ∀ value rest other others,
    Closes '"' text value rest → Closes '"' text other others → value = other
  unterminated : Unclosed '"' text ↔
    outcome.1 = .error ⟨.unterminatedLiteral '"', (place.past ('"' :: text)).inFile file⟩
  wrong : (¬ ∃ value rest, Closes '"' text value rest) → ¬ Unclosed '"' text →
    ∃ front sequence, WrongBehind '"' text front ∧
      (∀ other, WrongBehind '"' text other → other = front) ∧
      outcome.1 = .error ⟨.invalidEscape sequence, (place.past ('"' :: front)).inFile file⟩

/-- What comes of the text behind the opening quote of a character literal. -/
structure ReadsCharacter (text : List Char) (place : Place) (file : String)
    (outcome : Except Diagnostic Token × Cursor) : Prop where
  token : ∀ value rest, ClosesUnit text value rest ↔
    outcome = Cursor.literal .characterLiteral '\'' value rest place file
  wrong : WrongBehind '\'' text [] ↔ ∃ sequence,
    outcome.1 = .error ⟨.invalidEscape sequence, (place.past ['\'']).inFile file⟩
  unterminated : UnclosedUnit text ↔
    outcome.1 = .error ⟨.unterminatedLiteral '\'', (place.past ('\'' :: text)).inFile file⟩
  misfit : (¬ ∃ value rest, ClosesUnit text value rest) → ¬ WrongBehind '\'' text [] →
    ¬ UnclosedUnit text → ∃ shown, Misfits text shown ∧
      outcome.1 = .error ⟨.invalidCharacterLiteral (String.ofList shown), place.inFile file⟩

theorem Cursor.literal_inj {kind : TokenKind} {quote : Char} {other others : List Char}
    (same : Cursor.literal kind quote value rest place file =
      Cursor.literal kind quote other others place file) : value = other ∧ rest = others := by
  simp only [literal, Prod.mk.injEq, Except.ok.injEq, Token.mk.injEq, Cursor.mk.injEq] at same
  exact ⟨String.ofList_injective same.1.2.1, same.2.1⟩

section Quoted

variable {quote : Char} {kind : TokenKind} (visible : isSpace quote = false)
include visible

theorem Cursor.nextToken_literal
    (scanned : scan (quote :: text) = ⟨quote :: value ++ [quote], rest, .token kind value⟩) :
    Cursor.nextToken ⟨quote :: text, place, file⟩ =
      Cursor.literal kind quote value rest place file := by
  rw [nextToken_of_visible rfl visible, scanned]
  rfl

theorem Cursor.nextToken_unterminated
    (scanned : scan (quote :: text) = unterminated quote (quote :: text)) :
    (Cursor.nextToken ⟨quote :: text, place, file⟩).1 =
      .error ⟨.unterminatedLiteral quote, (place.past (quote :: text)).inFile file⟩ := by
  rw [nextToken_of_visible rfl visible, scanned]
  simp [unterminated, report]

theorem Cursor.nextToken_wrongEscape {front sequence taken : List Char}
    (scanned : scan (quote :: text) = wrongEscape (quote :: front) sequence taken rest) :
    (Cursor.nextToken ⟨quote :: text, place, file⟩).1 =
      .error ⟨.invalidEscape (String.ofList sequence),
        (place.past (quote :: front)).inFile file⟩ := by
  rw [nextToken_of_visible rfl visible, scanned]
  simp [wrongEscape, report]

end Quoted

/-- Strings are read exactly as their grammar says. -/
theorem readsString (text : List Char) (place : Place) (file : String) :
    ReadsString text place file (Cursor.nextToken ⟨'"' :: text, place, file⟩) := by
  have scanned : scan ('"' :: text) = stringLiteral text := by simp [scan, VariableKind.ofSigil?]
  generalize outcome : Cursor.nextToken ⟨'"' :: text, place, file⟩ = read
  have closed : ∀ value rest, Closes '"' text value rest →
      read = Cursor.literal .stringLiteral '"' value rest place file := by
    intro value rest closes
    exact outcome ▸ Cursor.nextToken_literal rfl (scanned.trans (stringLiteral_of_closes closes))
  have ended : Unclosed '"' text →
      read.1 = .error ⟨.unterminatedLiteral '"', (place.past ('"' :: text)).inFile file⟩ := by
    intro unclosed
    exact outcome ▸
      Cursor.nextToken_unterminated rfl (scanned.trans (stringLiteral_of_unclosed unclosed))
  have blamed : ∀ front, WrongBehind '"' text front → ∃ sequence,
      read.1 = .error ⟨.invalidEscape sequence, (place.past ('"' :: front)).inFile file⟩ := by
    intro front wrong
    obtain ⟨sequence, taken, rest, reads⟩ := stringLiteral_of_wrong wrong
    exact ⟨_, outcome ▸ Cursor.nextToken_wrongEscape rfl (scanned.trans reads)⟩
  have cases := closes_or_unclosed_or_wrong '"' text
  refine ⟨fun value rest => ⟨closed value rest, fun same => ?_⟩,
    fun _ _ _ _ closes again => closes.unique (by decide) (by decide) again,
    ⟨ended, fun same => ?_⟩, fun notClosed notEnded => ?_⟩
  · rcases cases with ⟨other, others, closes⟩ | unclosed | ⟨front, wrong⟩
    · obtain ⟨rfl, rfl⟩ := Cursor.literal_inj (same.symm.trans (closed _ _ closes))
      exact closes
    · cases (congrArg Prod.fst same).symm.trans (ended unclosed)
    · obtain ⟨sequence, blame⟩ := blamed front wrong
      cases (congrArg Prod.fst same).symm.trans blame
  · rcases cases with ⟨value, rest, closes⟩ | unclosed | ⟨front, wrong⟩
    · cases same.symm.trans (congrArg Prod.fst (closed _ _ closes))
    · exact unclosed
    · obtain ⟨sequence, blame⟩ := blamed front wrong
      cases same.symm.trans blame
  · rcases cases with closes | unclosed | ⟨front, wrong⟩
    · exact absurd closes notClosed
    · exact absurd unclosed notEnded
    · obtain ⟨sequence, blame⟩ := blamed front wrong
      exact ⟨front, sequence, wrong, fun other => wrong.unique (by decide), blame⟩

/-- Character literals are read exactly as their grammar says. -/
theorem readsCharacter (text : List Char) (place : Place) (file : String) :
    ReadsCharacter text place file (Cursor.nextToken ⟨'\'' :: text, place, file⟩) := by
  have scanned : scan ('\'' :: text) = characterLiteral text := by
    simp [scan, VariableKind.ofSigil?]
  generalize outcome : Cursor.nextToken ⟨'\'' :: text, place, file⟩ = read
  have closed : ∀ value rest, ClosesUnit text value rest →
      read = Cursor.literal .characterLiteral '\'' value rest place file := by
    intro value rest closes
    exact outcome ▸ Cursor.nextToken_literal rfl (scanned.trans (characterLiteral_of_closes closes))
  have ended : UnclosedUnit text →
      read.1 = .error ⟨.unterminatedLiteral '\'', (place.past ('\'' :: text)).inFile file⟩ := by
    intro unclosed
    exact outcome ▸
      Cursor.nextToken_unterminated rfl (scanned.trans (characterLiteral_of_unclosed unclosed))
  have blamed : WrongBehind '\'' text [] → ∃ sequence,
      read.1 = .error ⟨.invalidEscape sequence, (place.past ['\'']).inFile file⟩ := by
    intro wrong
    obtain ⟨sequence, taken, rest, reads⟩ := characterLiteral_of_wrong wrong
    exact ⟨_, outcome ▸ Cursor.nextToken_wrongEscape rfl (scanned.trans reads)⟩
  have misfit : ∀ shown taken rest,
      characterLiteral text =
        .faulty (.invalidCharacterLiteral (String.ofList shown)) taken rest →
      read.1 = .error ⟨.invalidCharacterLiteral (String.ofList shown), place.inFile file⟩ := by
    intro shown taken rest faulty
    rw [← outcome, Cursor.nextToken_of_visible rfl rfl, scanned, faulty]
    rfl
  have cases := characterLiteral_cases text
  refine ⟨fun value rest => ⟨closed value rest, fun same => ?_⟩, ⟨blamed, ?_⟩,
    ⟨ended, fun same => ?_⟩, fun notClosed notWrong notEnded => ?_⟩
  · rcases cases with ⟨other, others, closes⟩ | unclosed | wrong | ⟨_, _, _, _, scanned⟩
    · obtain ⟨rfl, rfl⟩ := Cursor.literal_inj (same.symm.trans (closed _ _ closes))
      exact closes
    · cases (congrArg Prod.fst same).symm.trans (ended unclosed)
    · obtain ⟨sequence, blame⟩ := blamed wrong
      cases (congrArg Prod.fst same).symm.trans blame
    · cases (congrArg Prod.fst same).symm.trans (misfit _ _ _ scanned)
  · rintro ⟨sequence, same⟩
    rcases cases with ⟨value, rest, closes⟩ | unclosed | wrong | ⟨_, _, _, _, scanned⟩
    · cases same.symm.trans (congrArg Prod.fst (closed _ _ closes))
    · cases same.symm.trans (ended unclosed)
    · exact wrong
    · cases same.symm.trans (misfit _ _ _ scanned)
  · rcases cases with ⟨value, rest, closes⟩ | unclosed | wrong | ⟨_, _, _, _, scanned⟩
    · cases same.symm.trans (congrArg Prod.fst (closed _ _ closes))
    · exact unclosed
    · obtain ⟨sequence, blame⟩ := blamed wrong
      cases same.symm.trans blame
    · cases same.symm.trans (misfit _ _ _ scanned)
  · rcases cases with closes | unclosed | wrong | ⟨shown, taken, rest, misfits, scanned⟩
    · exact absurd closes notClosed
    · exact absurd unclosed notEnded
    · exact absurd wrong notWrong
    · exact ⟨shown, misfits, misfit _ _ _ scanned⟩

/-- Behind an opening quote a literal is accepted if the text has the form of one, and blamed for
the way in which it has not. -/
theorem Cursor.nextToken_quoted (text : List Char) (place : Place) (file : String) :
    ReadsString text place file (Cursor.nextToken ⟨'"' :: text, place, file⟩) ∧
      ReadsCharacter text place file (Cursor.nextToken ⟨'\'' :: text, place, file⟩) :=
  ⟨readsString text place file, readsCharacter text place file⟩

end Scriptlet
