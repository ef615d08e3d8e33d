import Scriptlet.Proofs.Diagnostic.Quotation
import Scriptlet.Proofs.Session.Frame

/-!
# The end of the input

A cursor tells whether there is anything to read, and it tells so exactly: reading fails with
`Cause.unexpectedEnd` if and only if there is nothing (`Cursor.hasNext_eq_false_iff`).  Whoever asks
first never meets this cause.  Cutting a source into tokens and every request to a reader do ask
first, so they never report it, whatever went wrong before (`endOfInput_known`).
-/

namespace Scriptlet

namespace Cursor

variable {source : String} {file : Option String} {cursor after : Cursor} {token : Token}
  {diagnostic : Diagnostic}

/-! ## Reading at the end -/

/-- Where there is something to read, the input has not ended. -/
theorem nextToken_ne_unexpectedEnd (more : cursor.hasNext = true)
    (read : cursor.nextToken = (.error diagnostic, after)) :
    diagnostic.cause ≠ .unexpectedEnd := by
  obtain ⟨ahead, reading, _⟩ := exists_reading read
  intro ended
  rw [ended] at reading
  exact scan_skipSpace_quotes more .unexpectedEnd ahead reading

theorem hasNext_eq_false_iff (cursor : Cursor) :
    cursor.hasNext = false ↔
      ∃ position, cursor.nextToken.1 = .error ⟨.unexpectedEnd, position⟩ := by
  constructor
  · intro nothing
    have blank : cursor.skipSpace.rest = [] := by
      refine List.dropWhile_eq_nil_iff.mpr fun c member => ?_
      simpa using List.any_eq_false.mp nothing c member
    refine ⟨cursor.skipSpace.position, ?_⟩
    rw [nextToken, blank]
    rfl
  · rintro ⟨position, read⟩
    refine (Bool.not_eq_true _).mp fun more => ?_
    exact nextToken_ne_unexpectedEnd more (Prod.ext read rfl) rfl

/-! ## Cursors that have been asked before -/

/-- The cursors that reading tokens and items comes to, also after faults. -/
inductive Visited (source : String) (file : Option String) : Cursor → Prop where
  | start : Visited source file (ofSource source file)
  | nextToken {cursor : Cursor} : Visited source file cursor →
      Visited source file cursor.nextToken.2
  | next {cursor : Cursor} : Visited source file cursor → Visited source file cursor.next.2

/-- A cursor stands in the source, until a fault ends the stream and leaves nothing to read. -/
theorem Visited.standsIn_or_spent (visited : Visited source file cursor) :
    cursor.StandsIn source file ∨ cursor.Spent := by
  induction visited with
  | start => exact .inl (standsIn_ofSource source file)
  | nextToken _ ih =>
      obtain stands | spent := ih
      · exact .inl stands.nextToken
      · rw [spent.nextToken_eq]
        exact .inr spent
  | @next cursor _ ih =>
      obtain stands | spent := ih
      · obtain same | ⟨token, after, read, same⟩ | ⟨diagnostic, after, read, same⟩ :=
          next_cases cursor
        · rw [same]
          exact .inl stands
        · have behind := stands.nextToken
          rw [read] at behind
          rw [same]
          exact .inl behind
        · rw [same]
          exact .inr (spent_exhaust after)
      · rw [spent.next_eq]
        exact .inr spent

/-- The token is what comes first behind the cursor, and the cursor behind it stands at its end. -/
structure TakesFirst (source : String) (cursor : Cursor) (token : Token) (after : Cursor) :
    Prop where
  begins : Lexeme.BeginsAt source.toList cursor.position.offset.toNat
    token.span.start.offset.toNat
  spelled : token.span.slice source = token.sourceText.toList
  nonempty : token.sourceText ≠ ""
  stops : after.position = token.span.stop

theorem StandsIn.takesFirst (stands : cursor.StandsIn source file)
    (short : source.length < UInt32.size - 1) (read : cursor.nextToken = (.ok token, after)) :
    cursor.TakesFirst source token after := by
  obtain ⟨_, _, _, visible, _, _, _⟩ := nextToken_takes read
  obtain ⟨before, split, start, stop⟩ := stands.exists_text read
  refine ⟨?_, ?_, ?_, (nextToken_stop read).symm⟩
  · rw [nextToken_start read, stands.toNat_offset short, stands.skipSpace.toNat_offset short]
    exact stands.beginsAt (hasNext_of_nextToken read)
  · have span : token.span = ⟨token.span.start, token.span.stop⟩ := rfl
    rw [span, start, stop]
    exact Span.slice_eq split (Nat.lt_of_lt_of_le short (Nat.sub_le _ _))
  · intro nothing
    rw [nothing] at visible
    exact visible rfl

/-- What the cursor tells about the end of the input is exact, and what it reads comes first. -/
structure Exact (source : String) (cursor : Cursor) : Prop where
  ended : cursor.hasNext = false ↔
    ∃ position, cursor.nextToken.1 = .error ⟨.unexpectedEnd, position⟩
  reads : ∀ token after, cursor.nextToken = (.ok token, after) →
    cursor.TakesFirst source token after

theorem Visited.exact (visited : Visited source file cursor)
    (short : source.length < UInt32.size - 1) : cursor.Exact source where
  ended := cursor.hasNext_eq_false_iff
  reads := by
    intro token after read
    obtain stands | spent := visited.standsIn_or_spent
    · exact stands.takesFirst short read
    · cases spent.nextToken_eq.symm.trans read

end Cursor

/-! ## Sources and sessions -/

/-- The contract of a reader that never reads on at the end of the input. -/
def Contract.endsKnown : Contract where
  admits _ _ := True
  abandons _ _ := True
  token _ := True
  point _ := True
  halt halt := ∀ position, halt ≠ .failed ⟨.unexpectedEnd, position⟩
  abandoned _ := trivial
  held _ := trivial
  used _ := trivial
  read _ _ _ := trivial
  fault := by
    intro cursor after diagnostic more _ read
    refine ⟨trivial, ?_⟩
    rintro position ⟨⟩
    exact Cursor.nextToken_ne_unexpectedEnd more read rfl
  ended _ _ := trivial
  points _ _ _ := trivial
  blamed := by
    rintro shown cause _ syntactic position ⟨⟩
    cases syntactic
  endless := by rintro position ⟨⟩
  origin _ := trivial

theorem Contract.endsKnown_resumes : Contract.endsKnown.Resumes := fun _ _ stands => stands

/-- The fault that breaks a stream is not that the input has ended. -/
theorem tokenize_ne_unexpectedEnd (source : String) (file : Option String) (position : Position) :
    tokenize source file ≠ .error ⟨.unexpectedEnd, position⟩ := by
  intro failed
  obtain ⟨last, after, _, more, read⟩ := Cursor.exists_fault (tokenize_eq_error_iff.mp failed)
  exact Cursor.nextToken_ne_unexpectedEnd more read rfl

/-- Cursors know the end of the input, and nobody who drives one meets it as a fault. -/
structure EndKnown (source : String) (file : Option String) : Prop where
  cursors : source.length < UInt32.size - 1 →
    ∀ cursor, Cursor.Visited source file cursor → cursor.Exact source
  tokens : ∀ position, tokenize source file ≠ .error ⟨.unexpectedEnd, position⟩
  tree : ∀ position, parse source file ≠ .error (.failed ⟨.unexpectedEnd, position⟩)
  sessions : ∀ requests,
    ∀ halt ∈ Reader.haltsAll ((Reader.ofSource source file).performAll requests).1,
      ∀ position, halt ≠ .failed ⟨.unexpectedEnd, position⟩

/-- The end of the input is known before it is reached, after any faults and with any tables. -/
theorem endOfInput_known (source : String) (file : Option String) : EndKnown source file where
  cursors short _ visited := visited.exact short
  tokens := tokenize_ne_unexpectedEnd source file
  tree := by
    intro position failed
    have kept := @parse_keeps .endsKnown source file trivial
    rw [failed] at kept
    exact kept position rfl
  sessions requests :=
    (Reader.performAll_answered Contract.endsKnown_resumes requests _ trivial).halts

/-- A literal goes wrong at its escape.  What is left of it is asked for again: a word that is not
known, a number, and a quote that is never closed.  The end of the input is an operand here. -/
theorem endOfInput_known_resumed :
    (∃ cursor token after, Cursor.Visited "'\\q1' " none cursor ∧
      cursor.nextToken = (.ok token, after) ∧ token.value = "1" ∧
      cursor.TakesFirst "'\\q1' " token after) ∧
    ∃ halts, halts = Reader.haltsAll ((Reader.ofSource "'\\q1' " none).performAll
        [.peek, .registerOperand .endOfInput .primary, .statement, .nested [.advance, .advance],
          .expression .lowest]).1 ∧
      halts.length = 3 ∧ ∀ halt ∈ halts, ∀ position, halt ≠ .failed ⟨.unexpectedEnd, position⟩ := by
  have known := endOfInput_known "'\\q1' " none
  have visited := (@Cursor.Visited.start "'\\q1' " none).nextToken.nextToken
  have read : (Cursor.ofSource "'\\q1' " none).nextToken.2.nextToken.2.nextToken =
      (.ok ⟨.integerLiteral, "1", ⟨⟨3, 1, 4, "shell"⟩, ⟨4, 1, 5, "shell"⟩⟩⟩,
        ⟨['\'', ' '], ⟨4, 1, 5⟩, "shell"⟩) := by
    decide +kernel
  have takes := (known.cursors (by decide) _ visited).reads _ _ read
  exact ⟨⟨_, _, _, visited, read, rfl, takes⟩, _, rfl, by decide +kernel, known.sessions _⟩

end Scriptlet
