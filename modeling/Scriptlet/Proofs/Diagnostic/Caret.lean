import Scriptlet.Proofs.Diagnostic.Anchor

/-!
# Where the arrow points

A rendered diagnostic ends in a line of the source and an arrow below it.  The head of the arrow
stands below the character at the position of the diagnostic, or below where it would stand if it
were not white space that is left out (`render_pointsAt`).

The excerpt is found again in the source from the position: the line around an offset
(`Lines.Located`) is the line with the number of the offset, and its parts (`Lines.Trimmed`) are
what is shown of it and what is not.  The indentation is left out, so the arrow would begin too far
to the right if the position were inside it; but no diagnostic is about a place there, because each
is anchored at something visible.
-/

namespace Scriptlet

namespace Lines

/-! ## Lines of a text -/

/-- A line of a text, with what stands before it and behind it. -/
structure Located (text : List Char) where
  before : List Char
  line : List Char
  after : List Char
  split : text = before ++ line ++ after
  begins : ∀ c ∈ before.getLast?, c = '\n'
  unbroken : '\n' ∉ line
  ends : ∀ c ∈ after.head?, c = '\n'

/-- The number of the line, counted from one. -/
def Located.number {text : List Char} (located : Located text) : Nat :=
  located.before.count '\n' + 1

theorem pieces_cons {character : Char} (plain : character ≠ '\n') {text piece : List Char}
    {others : List (List Char)} (pieced : pieces text = piece :: others) :
    pieces (character :: text) = (character :: piece) :: others := by
  simp only [pieces, if_neg plain, pieced]

/-- The pieces on both sides of a line feed. -/
theorem pieces_feed (front text : List Char) :
    pieces (front ++ '\n' :: text) = pieces front ++ pieces text := by
  induction front with
  | nil => simp [pieces]
  | cons character front ih =>
      rw [List.cons_append]
      by_cases feed : character = '\n'
      · simp [pieces, feed, ih]
      · obtain ⟨piece, others, pieced⟩ := List.exists_cons_of_ne_nil (pieces_ne_nil front)
        rw [pieced] at ih
        rw [pieces_cons feed pieced, pieces_cons feed ih]
        rfl

/-- The first piece goes up to the first line feed. -/
theorem pieces_head {line after : List Char} (unbroken : '\n' ∉ line)
    (ends : ∀ c ∈ after.head?, c = '\n') : (pieces (line ++ after)).head? = some line := by
  induction line with
  | nil =>
      cases after with
      | nil => rfl
      | cons feed after =>
          rw [ends feed rfl]
          simp [pieces]
  | cons character line ih =>
      rw [List.mem_cons, not_or] at unbroken
      obtain ⟨piece, others, pieced⟩ := List.exists_cons_of_ne_nil (pieces_ne_nil (line ++ after))
      have first := ih unbroken.2
      rw [pieced] at first
      cases first
      rw [List.cons_append, pieces_cons (Ne.symm unbroken.1) pieced]
      rfl

/-- A located line is the line with its number. -/
theorem Located.line?_number {text : List Char} (located : Located text) :
    line? text located.number = some (dropReturn located.line) := by
  obtain ⟨before, line, after, rfl, begins, unbroken, ends⟩ := located
  have first := pieces_head unbroken ends
  rw [List.head?_eq_getElem?] at first
  have found : (pieces (before ++ line ++ after))[before.count '\n']? = some line := by
    rw [List.append_assoc]
    cases last : before.getLast? with
    | none =>
        rw [List.getLast?_eq_none_iff.mp last]
        exact first
    | some feed =>
        obtain ⟨front, rfl⟩ := List.getLast?_eq_some_iff.mp last
        cases begins feed last
        have count : (front ++ ['\n']).count '\n' = (pieces front).length := by
          rw [length_pieces]
          simp
        rw [count, List.append_assoc, List.singleton_append, pieces_feed,
          List.getElem?_append_right (Nat.le_refl _), Nat.sub_self]
        exact first
  rw [line?, number, if_neg (Nat.succ_ne_zero _), Nat.add_sub_cancel, found]
  rfl

/-- The character of a text at a point of a line. -/
theorem Located.getElem?_eq {text back ahead : List Char} (located : Located text)
    (line : located.line = back ++ ahead) {c : Char} (next : ahead.head? = some c) :
    text[located.before.length + back.length]? = some c := by
  obtain ⟨before, _, after, rfl, _, _, _⟩ := located
  cases line
  obtain ⟨others, rfl⟩ := List.head?_eq_some_iff.mp next
  simp

/-- The line feeds in front of a point of a line are those in front of the line. -/
theorem Located.count_append {text back ahead : List Char} (located : Located text)
    (line : located.line = back ++ ahead) :
    (located.before ++ back).count '\n' = located.before.count '\n' := by
  have unbroken := located.unbroken
  rw [line, List.mem_append, not_or] at unbroken
  rw [List.count_append, List.count_eq_zero_of_not_mem unbroken.1, Nat.add_zero]

/-- The line around a point of a text. -/
theorem exists_located {text passed rest : List Char} (split : text = passed ++ rest) :
    ∃ (located : Located text) (back ahead : List Char), located.line = back ++ ahead ∧
      passed = located.before ++ back ∧ rest = ahead ++ located.after ∧
      back.length = (passed.reverse.takeWhile (· ≠ '\n')).length := by
  let plain (c : Char) : Bool := c ≠ '\n'
  let back := (passed.reverse.takeWhile plain).reverse
  let before := (passed.reverse.dropWhile plain).reverse
  have behind : passed = before ++ back := by
    rw [← List.reverse_append, List.takeWhile_append_dropWhile, List.reverse_reverse]
  have further : rest = rest.takeWhile plain ++ rest.dropWhile plain :=
    List.takeWhile_append_dropWhile.symm
  have stops : ∀ run : List Char, ∀ c ∈ (run.dropWhile plain).head?, c = '\n' := by
    intro run c next
    simpa [plain] using Lexeme.rejected_of_dropWhile c next
  have runs : ∀ run : List Char, '\n' ∉ run.takeWhile plain := by
    intro run member
    have accepts := List.mem_takeWhile_imp member
    cases accepts
  have whole : text = before ++ (back ++ rest.takeWhile plain) ++ rest.dropWhile plain := by
    rw [split, behind, List.append_assoc, List.append_assoc, List.append_assoc, ← further]
  have unbroken : '\n' ∉ back ++ rest.takeWhile plain := by
    rw [List.mem_append, List.mem_reverse, not_or]
    exact ⟨runs passed.reverse, runs rest⟩
  refine ⟨⟨before, _, rest.dropWhile plain, whole, ?_, unbroken, stops rest⟩, back, _, rfl, behind,
    further, List.length_reverse⟩
  rw [List.getLast?_reverse]
  exact stops passed.reverse

/-! ## What is shown of a line -/

/-- A line without its break, taken apart into its indentation, what is shown of it, and the white
space at its end. -/
structure Trimmed (line : List Char) where
  indent : List Char
  shown : List Char
  trail : List Char
  split : line = indent ++ shown ++ trail
  indents : ∀ c ∈ indent, Diagnostic.isIndent c = true
  flush : ∀ c ∈ (shown ++ trail).head?, Diagnostic.isIndent c = false
  blank : ∀ c ∈ trail, Text.isBlank c = true
  visible : ∀ c ∈ shown.getLast?, Text.isBlank c = false

/-- The parts of a line, as excerpts take them apart. -/
def trimmed (line : List Char) : Trimmed line where
  indent := line.takeWhile Diagnostic.isIndent
  shown := Text.trimEnd (line.dropWhile Diagnostic.isIndent)
  trail := ((line.dropWhile Diagnostic.isIndent).reverse.takeWhile Text.isBlank).reverse
  split := by
    rw [List.append_assoc, Text.trimEnd, ← List.reverse_append, List.takeWhile_append_dropWhile,
      List.reverse_reverse, List.takeWhile_append_dropWhile]
  indents _ member := List.mem_takeWhile_imp member
  flush := by
    rw [Text.trimEnd, ← List.reverse_append, List.takeWhile_append_dropWhile, List.reverse_reverse]
    exact Lexeme.rejected_of_dropWhile
  blank _ member := List.mem_takeWhile_imp (List.mem_reverse.mp member)
  visible := by
    rw [Text.trimEnd, List.getLast?_reverse]
    exact Lexeme.rejected_of_dropWhile

/-- A line break may have a carriage return, which is white space. -/
theorem dropReturn_append (line : List Char) :
    ∃ ending, line = dropReturn line ++ ending ∧ ∀ c ∈ ending, c = '\r' := by
  unfold dropReturn
  split
  next last =>
    obtain ⟨front, rfl⟩ := List.getLast?_eq_some_iff.mp last
    exact ⟨['\r'], by rw [List.dropLast_concat], by simp⟩
  next => exact ⟨[], by simp, by simp⟩

/-- Indentation is white space. -/
theorem isIndent_eq_false {c : Char} (visible : Lexeme.isSpace c = false) :
    Diagnostic.isIndent c = false := by
  simp only [Lexeme.isSpace, Bool.or_eq_false_iff, beq_eq_false_iff_ne] at visible
  simp [Diagnostic.isIndent, visible]

/-- A point that is not inside a gap is not inside the indentation of its line: a visible character
right in front of it is on the same line. -/
theorem Located.stops {text back ahead : List Char} (located : Located text)
    (anchored : (∀ c ∈ (ahead ++ located.after).head?, Lexeme.isSpace c = false) ∨
      ∃ c ∈ (located.before ++ back).getLast?, Lexeme.isSpace c = false) :
    (∀ c ∈ ahead.head?, Diagnostic.isIndent c = false) ∨
      ∃ c ∈ back, Diagnostic.isIndent c = false := by
  obtain visible | ⟨c, last, visible⟩ := anchored
  · left
    intro c next
    apply isIndent_eq_false (visible c _)
    rw [List.head?_append, Option.mem_def.mp next]
    rfl
  · right
    refine ⟨c, ?_, isIndent_eq_false visible⟩
    rw [List.getLast?_append] at last
    cases ends : back.getLast? with
    | some d =>
        rw [ends] at last
        cases last
        exact List.mem_of_getLast? ends
    | none =>
        rw [ends] at last
        rw [located.begins c last] at visible
        cases visible

/-- The indentation does not reach a point with something else in front of it or behind it. -/
theorem indent_le {back ahead : List Char}
    (stops : (∀ c ∈ ahead.head?, Diagnostic.isIndent c = false) ∨
      ∃ c ∈ back, Diagnostic.isIndent c = false) :
    (trimmed (dropReturn (back ++ ahead))).indent.length ≤ back.length := by
  obtain ⟨ending, whole, _⟩ := dropReturn_append (back ++ ahead)
  generalize dropReturn (back ++ ahead) = text at whole
  have shorter : (text.takeWhile Diagnostic.isIndent).length ≤
      ((text ++ ending).takeWhile Diagnostic.isIndent).length := by
    rw [List.takeWhile_append]
    split
    next all =>
      rw [all, List.length_append]
      exact Nat.le_add_right _ _
    next => exact Nat.le_refl _
  rw [← whole, List.takeWhile_append] at shorter
  refine Nat.le_trans shorter ?_
  split
  next all =>
    obtain flush | ⟨c, member, other⟩ := stops
    · have nothing : ahead.takeWhile Diagnostic.isIndent = [] := by
        cases ahead with
        | nil => rfl
        | cons c ahead => simp [flush c rfl]
      simp [nothing]
    · have same := (List.takeWhile_prefix Diagnostic.isIndent).eq_of_length all
      rw [← same] at member
      cases other.symm.trans (List.mem_takeWhile_imp member)
  next => exact (List.takeWhile_prefix Diagnostic.isIndent).length_le

/-- The character behind a point is shown, unless only white space follows on the line. -/
theorem Trimmed.shown_or_blank {line back ahead : List Char} (parts : Trimmed (dropReturn line))
    (point : line = back ++ ahead) (reached : parts.indent.length ≤ back.length) :
    (∃ c, parts.shown[back.length - parts.indent.length]? = some c ∧ ahead.head? = some c) ∨
      ∀ c ∈ ahead, Text.isBlank c = true := by
  obtain ⟨indent, shown, trail, split, _, _, blank, _⟩ := parts
  obtain ⟨ending, whole, returns⟩ := dropReturn_append line
  rw [split] at whole
  have behind : ahead = (indent ++ shown ++ trail ++ ending).drop back.length := by
    rw [← whole, point, List.drop_left]
  dsimp only at reached ⊢
  rw [behind]
  by_cases inside : back.length - indent.length < shown.length
  · left
    refine ⟨_, List.getElem?_eq_getElem inside, ?_⟩
    rw [List.head?_drop, List.append_assoc, List.append_assoc, List.getElem?_append_right reached,
      List.getElem?_append_left inside]
    exact List.getElem?_eq_getElem inside
  · right
    intro c member
    have past : (indent ++ shown).length ≤ back.length := by
      rw [List.length_append]
      omega
    rw [List.append_assoc, List.drop_append, List.drop_eq_nil_of_le past, List.nil_append] at member
    rcases List.mem_append.mp (List.mem_of_mem_drop member) with trailing | returned
    · exact blank c trailing
    · rw [returns c returned]
      rfl

end Lines

namespace Diagnostic

variable {diagnostic : Diagnostic} {source : String}

/-- The numbered line above the arrow, when this is shown of the line. -/
def above (diagnostic : Diagnostic) (shown : List Char) : List Char :=
  Nat.toDigits 10 diagnostic.position.line.toNat ++ [' ', '|', ' '] ++ shown

/-- The rendering shows the line of the source that the position is on, and below it an arrow whose
head is below the character at the position.  What is left out of the line is in `parts`; `heading`
is what comes before these two lines, and `stem` is the arrow without its head.  The indentation
ends in front of the position, so it can be taken away from the column. -/
structure PointsAt (diagnostic : Diagnostic) (source : String)
    (located : Lines.Located source.toList)
    (parts : Lines.Trimmed (Lines.dropReturn located.line)) (heading stem : List Char) : Prop where
  number : diagnostic.position.line.toNat = located.number
  offset : diagnostic.position.offset.toNat + 1 =
    located.before.length + diagnostic.position.column.toNat
  within : diagnostic.position.column.toNat ≤ located.line.length + 1
  beyond : parts.indent.length < diagnostic.position.column.toNat
  width : diagnostic.arrowWidth source.toList + parts.indent.length =
    diagnostic.position.column.toNat
  rendered : diagnostic.render source = String.ofList
    (heading ++ (diagnostic.above parts.shown ++ ['\n']) ++ (stem ++ ['^'] ++ ['\n']))
  headed : heading.getLast? = some '\n'
  unbroken : '\n' ∉ diagnostic.above parts.shown ∧ '\n' ∉ stem
  caret : stem.length + parts.indent.length =
    (Nat.toDigits 10 diagnostic.position.line.toNat).length + 2 + diagnostic.position.column.toNat
  below : (∃ c, (diagnostic.above parts.shown)[stem.length]? = some c ∧
      source.toList[diagnostic.position.offset.toNat]? = some c) ∨
    ∀ c ∈ located.line.drop (diagnostic.position.column.toNat - 1), Text.isBlank c = true

/-- The arrow without its head. -/
def stem (diagnostic : Diagnostic) (source : List Char) : List Char :=
  diagnostic.margin ++ [' '] ++ List.replicate (diagnostic.arrowWidth source - 1) '-'

theorem render_eq (diagnostic : Diagnostic) (source : String) :
    ∃ heading, heading.getLast? = some '\n' ∧ diagnostic.render source = String.ofList
      (heading ++ (diagnostic.excerpt source.toList ++ ['\n']) ++
        (diagnostic.stem source.toList ++ ['^'] ++ ['\n'])) := by
  refine ⟨diagnostic.headline.toList ++ ['\n'] ++ "-> ".toList ++
    diagnostic.position.file.toList ++ ['\n'] ++ diagnostic.margin ++ ['\n'],
    List.getLast?_concat, ?_⟩
  simp [render, lines, arrow, stem]

/-- The excerpt is taken from the located line. -/
theorem sourceLine_eq {located : Lines.Located source.toList}
    (number : diagnostic.position.line.toNat = located.number) :
    diagnostic.sourceLine source.toList = Lines.dropReturn located.line := by
  rw [sourceLine, number, located.line?_number]
  rfl

/-- No line feed is shown. -/
theorem unbroken_above (diagnostic : Diagnostic) (located : Lines.Located source.toList) :
    '\n' ∉ diagnostic.above (Lines.trimmed (Lines.dropReturn located.line)).shown := by
  intro member
  simp only [above, List.mem_append] at member
  rcases member with (digit | bar) | shown
  · cases Nat.isDigit_of_mem_toDigits (by decide) (by decide) digit
  · revert bar
    decide
  · obtain ⟨ending, whole, _⟩ := Lines.dropReturn_append located.line
    have parts := (Lines.trimmed (Lines.dropReturn located.line)).split
    apply located.unbroken
    rw [whole, parts]
    simp [shown]

/-- Behind the number and the bar comes what is shown. -/
theorem getElem?_above (diagnostic : Diagnostic) (shown : List Char) (index : Nat) :
    (diagnostic.above shown)[(Nat.toDigits 10 diagnostic.position.line.toNat).length + 3 +
      index]? = shown[index]? := by
  have margin : (Nat.toDigits 10 diagnostic.position.line.toNat ++ [' ', '|', ' ']).length =
      (Nat.toDigits 10 diagnostic.position.line.toNat).length + 3 := List.length_append
  rw [above, List.getElem?_append_right (by omega), margin, Nat.add_sub_cancel_left]

/-- A rendering points at the position if this is the position of a point of the source that the
indentation does not reach. -/
theorem exists_pointsAt {located : Lines.Located source.toList} {back ahead : List Char}
    (line : located.line = back ++ ahead)
    (number : diagnostic.position.line.toNat = located.number)
    (column : diagnostic.position.column.toNat = back.length + 1)
    (offset : diagnostic.position.offset.toNat = located.before.length + back.length)
    (reached : (Lines.trimmed (Lines.dropReturn located.line)).indent.length ≤ back.length) :
    ∃ heading, diagnostic.PointsAt source located
      (Lines.trimmed (Lines.dropReturn located.line)) heading (diagnostic.stem source.toList) := by
  obtain ⟨heading, headed, rendered⟩ := diagnostic.render_eq source
  have sourced := sourceLine_eq number
  have indent : diagnostic.indent source.toList =
      (Lines.trimmed (Lines.dropReturn located.line)).indent.length := by
    rw [Diagnostic.indent, sourced]
    rfl
  have width : diagnostic.arrowWidth source.toList +
      (Lines.trimmed (Lines.dropReturn located.line)).indent.length =
      diagnostic.position.column.toNat := by
    rw [arrowWidth, indent]
    omega
  have long : (diagnostic.stem source.toList).length =
      (Nat.toDigits 10 diagnostic.position.line.toNat).length + 3 +
        (back.length - (Lines.trimmed (Lines.dropReturn located.line)).indent.length) := by
    simp only [stem, margin, lineNumber, List.length_append, List.length_replicate,
      List.length_cons, List.length_nil]
    omega
  refine ⟨heading, number, ?_, ?_, ?_, width, ?_, headed,
    ⟨diagnostic.unbroken_above located, ?_⟩, ?_, ?_⟩
  · omega
  · rw [line, List.length_append]
    omega
  · omega
  · rw [rendered, excerpt, sourced]
    rfl
  · simp [stem, margin]
  · rw [long]
    omega
  · have skipped : located.line.drop (diagnostic.position.column.toNat - 1) = ahead := by
      rw [column, Nat.add_sub_cancel, line, List.drop_left]
    rw [skipped, long, getElem?_above, offset]
    refine (Lines.Trimmed.shown_or_blank _ line reached).imp_left ?_
    rintro ⟨c, shown, next⟩
    exact ⟨c, shown, located.getElem?_eq line next⟩

end Diagnostic

/-- The coordinates of a point of a source that is short enough for them. -/
theorem Place.toNat_inFile_past {source : String} {passed rest : List Char}
    (short : source.length < UInt32.size - 1) (split : source.toList = passed ++ rest)
    (file : Option String) :
    ((start.past passed).inFile (file.getD Cursor.unnamed)).offset.toNat = passed.length ∧
      ((start.past passed).inFile (file.getD Cursor.unnamed)).line.toNat =
        passed.count '\n' + 1 ∧
      ((start.past passed).inFile (file.getD Cursor.unnamed)).column.toNat =
        (passed.reverse.takeWhile (· ≠ '\n')).length + 1 := by
  have reported : ((start.past passed).inFile (file.getD Cursor.unnamed)).Reported source file :=
    ⟨passed, ⟨rest, split.symm⟩, rfl⟩
  have told := reported.trueIn short
  have offset : ((start.past passed).inFile (file.getD Cursor.unnamed)).offset.toNat =
      passed.length := by
    have whole : passed.length + rest.length = source.length := by
      rw [← String.length_toList, split, List.length_append]
    have counted : (start.past passed).offset = passed.length :=
      (offset_past start passed).trans (Nat.zero_add _)
    have fits : (start.past passed).offset < UInt32.size := by omega
    rw [inFile, UInt32.toNat_ofNat_of_lt' fits, counted]
  have line := told.line
  have column := told.column
  simp only [offset, ofOffset, split, List.take_left] at line column
  exact ⟨offset, line.trans (Nat.add_comm _ _), column.trans (Nat.add_comm _ _)⟩

/-- The arrow below a diagnostic of a source points at its position. -/
theorem render_pointsAt {source : String} {file : Option String} {diagnostic : Diagnostic}
    (short : source.length < UInt32.size - 1)
    (failed : tokenize source file = .error diagnostic ∨
      parse source file = .error (.failed diagnostic)) :
    ∃ located parts heading stem, diagnostic.PointsAt source located parts heading stem := by
  obtain ⟨passed, rest, split, position, anchor⟩ := failed.elim tokenize_anchored parse_anchored
  obtain ⟨located, back, ahead, line, behind, further, length⟩ := Lines.exists_located split
  obtain ⟨offset, number, column⟩ := Place.toNat_inFile_past short split file
  rw [← position] at offset number column
  rw [further, behind] at anchor
  have reached := Lines.indent_le (located.stops anchor)
  rw [← line] at reached
  rw [behind, located.count_append line] at number
  rw [← length] at column
  rw [behind, List.length_append] at offset
  obtain ⟨heading, points⟩ := Diagnostic.exists_pointsAt line number column offset reached
  exact ⟨located, _, heading, _, points⟩

/-- An escape that is not known, on the second line of a literal, and an assignment that nothing but
white space follows. -/
theorem render_pointsAt_indented :
    (∃ diagnostic, tokenize "$a = \"x\r\n \t$b\\q\" ;\r\n" none = .error diagnostic ∧
      diagnostic.render "$a = \"x\r\n \t$b\\q\" ;\r\n" =
        "Error: InvalidEscapeSequence (Invalid escape sequence `\\q`)\n-> shell\n" ++
        "  |\n" ++
        "2 | $b\\q\" ;\n" ++
        "  | --^\n" ∧
      ∃ located parts heading stem,
        diagnostic.PointsAt "$a = \"x\r\n \t$b\\q\" ;\r\n" located parts heading stem) ∧
    ∃ diagnostic, parse " \t$b =\t \r\n" none = .error (.failed diagnostic) ∧
      diagnostic.render " \t$b =\t \r\n" =
        "Error: ExpectedExpression (Expected an expression, found `EOF`)\n-> shell\n" ++
        "  |\n" ++
        "1 | $b =\n" ++
        "  | ----^\n" ∧
      ∃ located parts heading stem,
        diagnostic.PointsAt " \t$b =\t \r\n" located parts heading stem := by
  have escape : tokenize "$a = \"x\r\n \t$b\\q\" ;\r\n" none =
      .error ⟨.invalidEscape "q", ⟨13, 2, 5, "shell"⟩⟩ := by decide +kernel
  have ending : parse " \t$b =\t \r\n" none =
      .error (.failed ⟨.expectedExpression "EOF", ⟨6, 1, 7, "shell"⟩⟩) := by decide +kernel
  exact ⟨⟨_, escape, by decide +kernel, render_pointsAt (by decide) (.inl escape)⟩,
    _, ending, by decide +kernel, render_pointsAt (by decide) (.inr ending)⟩

end Scriptlet
