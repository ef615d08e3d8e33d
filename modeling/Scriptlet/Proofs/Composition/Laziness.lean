import Scriptlet.Proofs.Composition.Promptness
import Scriptlet.Proofs.Lexing.Append
import Scriptlet.Proofs.Session.Contract

/-!
# Finished statements and the text behind them

Reading is lazy.  `statement_lazy`: a statement that leaves no lookahead depends on no character
behind its span.  With any other text there, well formed or not, the same statement is read, and the
cursor stops where the statement does.

Tokens alone do not show this, because a cursor that reads a symbol looks at all symbol characters
in a row, and so beyond the span.  The argument goes through the text that the cursor has passed:
the last token of a shut statement ends by itself (`Closed`), so that text is read alike in front of
anything (`Cursor.Passes.before_other`), and a reader without a lookahead has passed no more than
the tokens that it has used (`Parse.passes_of_statement`).
-/

namespace Scriptlet

/-! ## The text that a cursor has passed -/

/-- Counted from where sources begin, positions remain as they are. -/
theorem Position.relativeTo_start (position : Position) (file : String) :
    position.relativeTo (Place.start.inFile file) = position := by
  have count : ∀ word : UInt32, word - 1 + 1 = word := fun word => UInt32.sub_add_cancel word 1
  cases position with
  | mk offset line column named => simp [relativeTo, Place.inFile, Place.start, count]

theorem Place.start_shift {place : Place} (counted : place.Counted) :
    start.shift place = place := by
  obtain ⟨lines, columns⟩ := counted
  cases place with
  | mk offset line column =>
      simp only [shift, start, Place.mk.injEq] at *
      refine ⟨by omega, by omega, ?_⟩
      split <;> omega

namespace Cursor

namespace Passes

variable {cursor middle last other : Cursor} {tokens : List Token} {token : Token}

theorem concat (passes : Passes cursor tokens middle)
    (read : middle.nextToken = (.ok token, last)) : Passes cursor (tokens ++ [token]) last := by
  induction passes with
  | done => exact .token read .done
  | token first _ ih => exact .token first (ih read)

/-- The same tokens lead to the same cursor. -/
theorem unique (passes : Passes cursor tokens last) (again : Passes cursor tokens other) :
    last = other := by
  induction passes with
  | done =>
      cases again
      rfl
  | token read _ ih =>
      cases again with
      | token reread others =>
          cases read.symm.trans reread
          exact ih others

variable {source : String} {file : Option String}

/-- In a source that is short enough to count, what is passed is as long as the offset says. -/
theorem take_offset (passes : Passes (ofSource source file) tokens last)
    (short : source.length < UInt32.size - 1) :
    last.place.line < UInt32.size ∧
      source.toList = source.toList.take last.position.offset.toNat ++ last.rest := by
  obtain ⟨text, split, place, _⟩ := passes.exists_text
  have whole : source.toList = text ++ last.rest := split
  have shorter : text.length < UInt32.size - 1 := by
    have length := congrArg List.length whole
    rw [String.length_toList, List.length_append] at length
    omega
  constructor
  · have bound : last.place.line ≤ 1 + text.length := place ▸ Place.line_past_le Place.start text
    omega
  · have offset : last.position.offset.toNat = text.length := by
      rw [position, place, Place.inFile, Place.offset_past]
      simp only [ofSource, Place.start, Nat.zero_add]
      exact UInt32.toNat_ofNat_of_lt' (by omega)
    rw [offset, whole, List.take_left]

/-- Tokens are passed in the same way if nothing follows them. -/
theorem alone (passes : Passes (ofSource source file) tokens last)
    (short : source.length < UInt32.size - 1) :
    Passes (ofSource (String.ofList (source.toList.take last.position.offset.toNat)) file) tokens
      ⟨[], last.place, last.file⟩ := by
  obtain ⟨fits, whole⟩ := passes.take_offset short
  generalize source.toList.take last.position.offset.toNat = text at whole ⊢
  have inside : InSlice .start last.rest (ofSource (String.ofList text) file)
      (ofSource source file) := by
    refine ⟨?_, (Place.shift_start _).symm, Place.counted_start, rfl⟩
    simpa [ofSource] using whole
  obtain ⟨reached, passed, stands⟩ := inside.passes passes (Nat.le_refl _) fits
  have same : tokens.map (Token.relocate
      (·.relativeTo (Place.start.inFile (ofSource source file).file))) = tokens := by
    refine (List.map_congr_left fun token _ => ?_).trans (List.map_id tokens)
    simp [Token.relocate, Span.relocate, Position.relativeTo_start]
  rw [same] at passed
  have finished : reached.rest = [] :=
    List.append_cancel_right (stands.rest.symm.trans (List.nil_append _).symm)
  have stays : reached = ⟨[], last.place, last.file⟩ := by
    rw [stands.place, Place.start_shift stands.counted, stands.file, ← finished]
  rwa [← stays]

/-- Tokens of which the last ends by itself are passed in front of any other text, too. -/
theorem before_other (passes : Passes (ofSource source file) tokens last) (closed : Closed tokens)
    (short : source.length < UInt32.size - 1) (more : String) :
    Passes (ofSource (String.ofList (source.toList.take last.position.offset.toNat) ++ more) file)
      tokens ⟨more.toList, last.place, last.file⟩ := by
  have extended := @Passes.followedBy _ _ _ more.toList (passes.alone short)
    fun _ token ends => .inl (closed token ends)
  have front : (ofSource (String.ofList (source.toList.take last.position.offset.toNat))
      file).followedBy more.toList =
      ofSource (String.ofList (source.toList.take last.position.offset.toNat) ++ more) file := by
    simp [ofSource, Cursor.followedBy]
  rwa [front] at extended

end Passes

end Cursor

/-! ## Readers that have gone no further -/

/-- The reader has passed tokens, and nothing but tokens. -/
def Contract.trail (start : Cursor) : Contract where
  admits cursor _ := ∃ passed, start.Passes passed cursor
  abandons _ _ := True
  token _ := True
  point _ := True
  halt _ := True
  abandoned _ := trivial
  held _ := trivial
  used gone := gone
  read := by
    rintro cursor after shown _ ⟨passed, passes⟩ reading
    exact ⟨passed ++ [shown], passes.concat reading⟩
  fault _ _ _ := ⟨trivial, trivial⟩
  ended _ gone := gone
  points _ _ _ := trivial
  blamed _ _ := trivial
  endless := trivial
  origin _ := trivial

namespace Parse

variable {limit levels : Nat} {reader after : Reader} {statement : Statement}

theorem lookahead_eq_none_iff
    (ran : (Productions.within limit levels).statement reader = .ok statement after) :
    after.lookahead = none ↔ statement.isOpen = false := by
  have held : after.lookahead.isSome = statement.isOpen :=
    within_leaves limit levels reader after statement trivial ran
  rw [← held, Option.isSome_eq_false_iff, Option.isNone_iff_eq_none]

/-- Without a lookahead, the cursor stands right behind the tokens that were used. -/
theorem passes_of_statement {used rest : List Token} {ending : Except Diagnostic Token}
    (fresh : reader.lookahead = none) (reads : reader.Reads (used ++ rest) ending)
    (ran : (Productions.within limit levels).statement reader = .ok statement after)
    (left : after.Reads rest ending) (empty : after.lookahead = none) :
    reader.cursor.Passes used after.cursor := by
  have kept := (Productions.within_keep (.trail reader.cursor) limit levels).statement reader
    ⟨[], .done⟩
  rw [ran] at kept
  obtain ⟨⟨passed, passes⟩, _, _⟩ := kept
  have before : reader.cursor.stream.tokens = used ++ rest := by
    rw [← reads.tokens_eq, Reader.stream, fresh]
  have behind : after.cursor.stream.tokens = rest := by
    rw [← left.tokens_eq, Reader.stream, empty]
  have split := passes.stream_eq.1
  rw [before, behind] at split
  rw [List.append_cancel_right split]
  exact passes

end Parse

/-- A statement is read without a lookahead exactly if it is shut.  It is then the same in front of
any other text, and the cursor stands right behind it. -/
theorem statement_lazy {source : String} {file : Option String} {statement : Statement}
    {after : Reader} (short : source.length < UInt32.size - 1)
    (read : Parse.statement Parse.nestingLimit (Reader.ofSource source file) =
      .ok statement after) :
    (after.lookahead = none ↔ statement.isOpen = false) ∧
    (after.lookahead = none → ∀ more : String, ∃ later : Reader,
      Parse.statement Parse.nestingLimit (Reader.ofSource (String.ofList
        (source.toList.take statement.span.stop.offset.toNat) ++ more) file) =
          .ok statement later ∧
      later.cursor.position = statement.span.stop ∧ later.cursor.rest = more.toList ∧
      later.lookahead = none) := by
  have shut := Parse.lookahead_eq_none_iff read
  refine ⟨shut, fun empty more => ?_⟩
  have reads : (Reader.ofSource source file).Reads (Cursor.ofSource source file).stream.tokens
      (Cursor.ofSource source file).stream.ending := ⟨rfl, rfl, rfl⟩
  obtain ⟨rest, left, derives⟩ :=
    ((Parse.within_readsParts _ Parse.nestingLimit Parse.nestingLimit).statement _).sound reads read
  obtain ⟨used, split, some, closed, anywhere⟩ := derives.detach_shut (shut.mp empty)
  rw [split] at reads derives
  have passes := Parse.passes_of_statement rfl reads read left empty
  have stop : statement.span.stop = after.cursor.position :=
    Option.some.inj (derives.endsWith.symm.trans (passes.stop_eq some))
  have other := passes.before_other closed short more
  rw [stop]
  obtain ⟨tokens, ending⟩ := other.stream_eq
  have stands : (Reader.ofSource (String.ofList
      (source.toList.take after.cursor.position.offset.toNat) ++ more) file).Reads
      (used ++ _) _ := ⟨tokens, ending, rfl⟩
  obtain ⟨later, again, leftover⟩ := Parse.within_prompt _ Parse.nestingLimit Parse.nestingLimit
    _ _ _ (anywhere _) (shut.mp empty) _ stands
  have none : later.lookahead = none :=
    (Parse.lookahead_eq_none_iff again).mpr (shut.mp empty)
  have same := (Parse.passes_of_statement rfl stands again leftover none).unique other
  refine ⟨later, again, ?_, ?_, none⟩
  · rw [same]
    rfl
  · rw [same]

/-- The loop is read in front of a broken number, up to its semicolon, and so it is in front of a
broken literal. -/
theorem statement_lazy_malformed :
    ∃ statement after later,
      Parse.statement Parse.nestingLimit (Reader.ofSource "while ($a) $x = 1;\n 0x" none) =
        .ok statement after ∧
      statement = .loop
        (.atom ⟨.identifier .scalar .everyone, "$a", ⟨7, 1, 8, "shell"⟩, ⟨9, 1, 10, "shell"⟩⟩)
        (.assignment
          ⟨.identifier .scalar .everyone, "$x", ⟨11, 1, 12, "shell"⟩, ⟨13, 1, 14, "shell"⟩⟩
          (.atom ⟨.integerLiteral, "1", ⟨16, 1, 17, "shell"⟩, ⟨17, 1, 18, "shell"⟩⟩)
          ⟨⟨11, 1, 12, "shell"⟩, ⟨18, 1, 19, "shell"⟩⟩)
        ⟨⟨0, 1, 1, "shell"⟩, ⟨18, 1, 19, "shell"⟩⟩ ∧
      after.lookahead = none ∧ statement.isOpen = false ∧
      Parse.statement Parse.nestingLimit (Reader.ofSource "while ($a) $x = 1;'" none) =
        .ok statement later ∧
      later.cursor.position = ⟨18, 1, 19, "shell"⟩ ∧ later.cursor.rest = ['\''] ∧
      later.lookahead = none := by
  have shape :
      (match Parse.statement Parse.nestingLimit
          (Reader.ofSource "while ($a) $x = 1;\n 0x" none) with
        | .ok statement after => after.lookahead.isNone && statement == .loop
            (.atom ⟨.identifier .scalar .everyone, "$a", ⟨7, 1, 8, "shell"⟩, ⟨9, 1, 10, "shell"⟩⟩)
            (.assignment
              ⟨.identifier .scalar .everyone, "$x", ⟨11, 1, 12, "shell"⟩, ⟨13, 1, 14, "shell"⟩⟩
              (.atom ⟨.integerLiteral, "1", ⟨16, 1, 17, "shell"⟩, ⟨17, 1, 18, "shell"⟩⟩)
              ⟨⟨11, 1, 12, "shell"⟩, ⟨18, 1, 19, "shell"⟩⟩)
            ⟨⟨0, 1, 1, "shell"⟩, ⟨18, 1, 19, "shell"⟩⟩
        | .error _ _ => false) = true := by
    decide +kernel
  cases read : Parse.statement Parse.nestingLimit
      (Reader.ofSource "while ($a) $x = 1;\n 0x" none) with
  | error halt after =>
      rw [read] at shape
      cases shape
  | ok statement after =>
      rw [read, Bool.and_eq_true, Option.isNone_iff_eq_none, beq_iff_eq] at shape
      obtain ⟨empty, tree⟩ := shape
      obtain ⟨shut, anywhere⟩ := statement_lazy (by decide) read
      obtain ⟨later, again, stands, rest, none⟩ := anywhere empty "'"
      have stop : statement.span.stop = ⟨18, 1, 19, "shell"⟩ := by
        rw [tree]
        rfl
      have text : String.ofList ("while ($a) $x = 1;\n 0x".toList.take 18) ++ "'" =
          "while ($a) $x = 1;'" := by decide
      rw [stop] at again stands
      exact ⟨statement, after, later, rfl, tree, empty, shut.mp empty, text ▸ again, stands, rest,
        none⟩

end Scriptlet
