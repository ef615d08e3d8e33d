import Mathlib.Data.List.Forall2
import Scriptlet.Proofs.Diagnostic.Caret

/-!
# Tokens on their lines

Lines are counted in two ways: a cursor counts line feeds as it passes them, and a text is taken
apart at its line feeds to show one of its lines.  Both agree (`linesAgree`): on the line that a
token begins on, the token stands between the two columns of its span, unless it has a line feed
inside.

A line is shown without the carriage return of its line break.  No token loses a character by that,
because no token ends in a carriage return.
-/

namespace Scriptlet

namespace Lines

variable {text before shown after : List Char}

/-! ## Lines and pieces -/

theorem pieces_eq_splitOn (text : List Char) : pieces text = text.splitOn '\n' := by
  induction text with
  | nil => rfl
  | cons character text ih =>
      have cut : (character :: text).splitOn '\n' =
          if character = '\n' then [] :: text.splitOn '\n'
          else (text.splitOn '\n').modifyHead (character :: ·) := by
        simp [List.splitOn, List.splitOnP_cons_eq_if_modifyHead]
      rw [cut, ← ih]
      by_cases feed : character = '\n'
      · simp [pieces, feed]
      · obtain ⟨piece, others, pieced⟩ := List.exists_cons_of_ne_nil (pieces_ne_nil text)
        rw [pieces_cons feed pieced, if_neg feed, pieced]
        rfl

/-- The line is the piece without the carriage return at its end, if there is one. -/
def WithoutReturn (piece line : List Char) : Prop :=
  piece = line ++ ['\r'] ∨ piece = line ∧ piece.getLast? ≠ some '\r'

theorem dropReturn_withoutReturn (piece : List Char) : WithoutReturn piece (dropReturn piece) := by
  unfold dropReturn
  split
  next last =>
    obtain ⟨front, rfl⟩ := List.getLast?_eq_some_iff.mp last
    exact .inl (by rw [List.dropLast_concat])
  next kept => exact .inr ⟨rfl, kept⟩

theorem line?_succ (text : List Char) (index : Nat) :
    line? text (index + 1) = ((text.splitOn '\n').map dropReturn)[index]? := by
  rw [line?, if_neg (Nat.succ_ne_zero index), Nat.add_sub_cancel, pieces_eq_splitOn,
    List.getElem?_map]

/-! ## The line around a part of a text -/

/-- What does not end in a carriage return is not touched when one is dropped behind it. -/
theorem exists_dropReturn_append (kept : before.getLast? ≠ some '\r') (after : List Char) :
    ∃ rest, dropReturn (before ++ after) = before ++ rest := by
  unfold dropReturn
  split
  next last =>
    by_cases nothing : after = []
    · rw [nothing, List.append_nil] at last
      exact absurd last kept
    · exact ⟨after.dropLast, List.dropLast_append_of_ne_nil nothing⟩
  next => exact ⟨after, rfl⟩

/-- A part without a line feed stands on one line with the text on both sides of it. -/
theorem exists_line_around (split : text = before ++ shown ++ after) (unbroken : '\n' ∉ shown)
    (visible : ∃ c ∈ shown.getLast?, Lexeme.isSpace c = false) :
    ∃ back ahead, line? text (before.count '\n' + 1) = some (back ++ shown ++ ahead) ∧
      back.length = (before.reverse.takeWhile (· ≠ '\n')).length := by
  obtain ⟨c, last, visible⟩ := visible
  rw [List.append_assoc] at split
  obtain ⟨located, back, ahead, line, behind, further, length⟩ := exists_located split
  -- The line does not end inside the part, for it ends in front of a line feed.
  obtain ⟨trail, rfl⟩ : ∃ trail, ahead = shown ++ trail := by
    obtain ⟨trail, inside, _⟩ | ⟨outside, cut, beyond⟩ := List.append_eq_append_iff.mp further
    · exact ⟨trail, inside⟩
    · cases outside with
      | nil => exact ⟨[], by rw [cut, List.append_nil, List.append_nil]⟩
      | cons feed outside =>
          have broken := located.ends feed (by rw [beyond]; rfl)
          exact absurd (by simp [cut, broken]) unbroken
  have kept : (back ++ shown).getLast? ≠ some '\r' := by
    rw [List.getLast?_append, last]
    rintro ⟨⟩
    cases visible
  obtain ⟨rest, shows⟩ := exists_dropReturn_append kept trail
  have number : located.number = before.count '\n' + 1 := by
    rw [behind, located.count_append line, Located.number]
  refine ⟨back, rest, ?_, length⟩
  rw [← number, located.line?_number, line, ← List.append_assoc, shows]

/-- Columns go on behind a part without a line feed. -/
theorem length_takeWhile_append (unbroken : '\n' ∉ shown) :
    ((before ++ shown).reverse.takeWhile (· ≠ '\n')).length =
      (before.reverse.takeWhile (· ≠ '\n')).length + shown.length := by
  have plain : ∀ c ∈ shown.reverse, (decide (c ≠ '\n')) = true := by
    intro c member
    refine decide_eq_true fun feed => unbroken ?_
    rwa [← feed, ← List.mem_reverse]
  rw [List.reverse_append, List.takeWhile_append_of_pos plain, List.length_append,
    List.length_reverse, Nat.add_comm]

end Lines

/-! ## Tokens -/

namespace Cursor

variable {source : String} {file : Option String} {cursor after : Cursor} {token : Token}

/-- A token ends in a visible character. -/
theorem nextToken_last (read : cursor.nextToken = (.ok token, after)) :
    ∃ c ∈ token.sourceText.toList.getLast?, Lexeme.isSpace c = false := by
  simp only [nextToken, Prod.mk.injEq, report] at read
  obtain ⟨outcome, _⟩ := read
  split at outcome
  next kind value reading =>
    cases outcome
    have nonempty := (Lexeme.scan_of cursor.skipSpace.rest).progress kind value reading
    have last := List.getLast?_eq_some_getLast nonempty
    refine ⟨_, ?_, (Lexeme.scan_visible _).ends kind value reading _ last⟩
    rw [Token.toList_sourceText, String.toList_ofList,
      ← (Lexeme.scan_spelled _).spelling kind value reading, last]
    rfl
  next => cases outcome

/-- Every token of a stream is read somewhere in the source. -/
theorem StandsIn.exists_read (stands : cursor.StandsIn source file)
    (member : token ∈ cursor.stream.tokens) :
    ∃ before after : Cursor, before.StandsIn source file ∧
      before.nextToken = (.ok token, after) := by
  induction cursor using stream_induction with
  | ended cursor nothing =>
      rw [stream_of_end nothing] at member
      cases member
  | fault cursor after diagnostic more read =>
      rw [stream_of_fault more read] at member
      cases member
  | token cursor after first more read ih =>
      rw [stream_of_token more read] at member
      obtain rfl | later := List.mem_cons.mp member
      · exact ⟨cursor, after, stands, read⟩
      · have behind := stands.nextToken
        rw [read] at behind
        exact ih behind later

end Cursor

/-- The token stands on the line, between the columns of its span. -/
structure Token.OnLine (source : String) (token : Token) (line : List Char) : Prop where
  found : Lines.line? source.toList token.span.start.line.toNat = some line
  single : token.span.stop.line = token.span.start.line
  counted : 1 ≤ token.span.start.column.toNat
  within : token.span.stop.column.toNat ≤ line.length + 1
  columns : (line.take (token.span.stop.column.toNat - 1)).drop
    (token.span.start.column.toNat - 1) = token.sourceText.toList

/-- A token without a line feed inside stands on the line that it begins on. -/
theorem Cursor.StandsIn.exists_onLine {source : String} {file : Option String}
    {cursor after : Cursor} {token : Token} (short : source.length < UInt32.size - 1)
    (stands : cursor.StandsIn source file) (read : cursor.nextToken = (.ok token, after))
    (unbroken : '\n' ∉ token.sourceText.toList) : ∃ line, token.OnLine source line := by
  obtain ⟨before, split, start, stop⟩ := stands.exists_text read
  obtain ⟨back, ahead, found, length⟩ :=
    Lines.exists_line_around split unbroken (nextToken_last read)
  obtain ⟨_, stopLine, stopColumn⟩ := Place.toNat_inFile_past short split file
  rw [List.append_assoc] at split
  obtain ⟨_, startLine, startColumn⟩ := Place.toNat_inFile_past short split file
  rw [← start, ← length] at startColumn
  rw [← start] at startLine
  rw [← stop, Lines.length_takeWhile_append unbroken, ← length] at stopColumn
  rw [← stop, List.count_append, List.count_eq_zero_of_not_mem unbroken, Nat.add_zero,
    ← startLine] at stopLine
  refine ⟨back ++ token.sourceText.toList ++ ahead, ?_, UInt32.toNat_inj.mp stopLine, ?_, ?_, ?_⟩
  · rw [startLine, found]
  · omega
  · simp only [List.length_append]
    omega
  · rw [stopColumn, startColumn, Nat.add_sub_cancel, Nat.add_sub_cancel, ← List.length_append,
      List.take_left, List.drop_left]

/-! ## Both ways of counting -/

/-- What the coordinates of tokens say about the lines of a source, and what its lines are. -/
structure LinesAgree (source : String) : Prop where
  tokens : source.length < UInt32.size - 1 → ∀ file tokens, tokenize source file = .ok tokens →
    ∀ token ∈ tokens, '\n' ∉ token.sourceText.toList → ∃ line, token.OnLine source line
  numbers : ∀ number, (Lines.line? source.toList number).isSome = true ↔
    1 ≤ number ∧ number ≤ 1 + source.toList.count '\n'
  lines : ∃ lines, List.Forall₂ Lines.WithoutReturn (source.toList.splitOn '\n') lines ∧
    ∀ index, Lines.line? source.toList (index + 1) = lines[index]?

/-- Tokens stand on the lines that their spans name. -/
theorem linesAgree (source : String) : LinesAgree source where
  tokens := by
    intro short file tokens lexed token member unbroken
    obtain ⟨rfl, _⟩ := Cursor.stream_ofSource lexed
    obtain ⟨_, _, stands, read⟩ := (Cursor.standsIn_ofSource source file).exists_read member
    exact stands.exists_onLine short read unbroken
  numbers number := by rw [Lines.line?_isSome, Nat.add_comm]
  lines := by
    refine ⟨(source.toList.splitOn '\n').map Lines.dropReturn, ?_, Lines.line?_succ _⟩
    rw [List.forall₂_map_right_iff, List.forall₂_same]
    exact fun piece _ => Lines.dropReturn_withoutReturn piece

/-- A literal that is not ASCII, on a line with a carriage return at both ends, behind a literal
that goes over two lines. -/
theorem linesAgree_returns :
    ∃ tokens token, tokenize "\"ü\r\n\"\n\r \"é\" ;\r\n" none = .ok tokens ∧ token ∈ tokens ∧
      token.sourceText = "\"é\"" ∧
      token.span = ⟨⟨8, 3, 3, "shell"⟩, ⟨11, 3, 6, "shell"⟩⟩ ∧
      token.OnLine "\"ü\r\n\"\n\r \"é\" ;\r\n" "\r \"é\" ;".toList := by
  have lexed : tokenize "\"ü\r\n\"\n\r \"é\" ;\r\n" none =
      .ok [⟨.stringLiteral, "ü\r\n", ⟨⟨0, 1, 1, "shell"⟩, ⟨5, 2, 2, "shell"⟩⟩⟩,
        ⟨.stringLiteral, "é", ⟨⟨8, 3, 3, "shell"⟩, ⟨11, 3, 6, "shell"⟩⟩⟩,
        ⟨.semicolon, ";", ⟨⟨12, 3, 7, "shell"⟩, ⟨13, 3, 8, "shell"⟩⟩⟩] := by
    decide +kernel
  obtain ⟨line, stands⟩ := (linesAgree _).tokens (by decide) none _ lexed
    ⟨.stringLiteral, "é", ⟨⟨8, 3, 3, "shell"⟩, ⟨11, 3, 6, "shell"⟩⟩⟩ (by simp) (by decide +kernel)
  have found : Lines.line? "\"ü\r\n\"\n\r \"é\" ;\r\n".toList 3 = some "\r \"é\" ;".toList := by
    decide +kernel
  cases stands.found.symm.trans found
  exact ⟨_, _, lexed, by simp, by decide +kernel, rfl, stands⟩

end Scriptlet
