import Scriptlet.Proofs.Composition.Sequence
import Scriptlet.Proofs.Layout.Pairing
import Scriptlet.Proofs.Lexing.Append

/-!
# One program behind another

Programs compose by writing them one behind the other.  No separator is needed, because a program
ends in a token that ends by itself.  If both sources are programs, the whole has the statements of
both.  If the second is wrong, the whole is wrong for the same cause, and all positions are those of
the second source moved behind the first.  Only an `else` at the front of the second source could
make a difference, for it might belong to the first (`parse_append`).
-/

namespace Scriptlet

variable {front back : String} {file : Option String} {tokens others : List Token}
  {root : Block}

/-! ## Tokens -/

/-- Without anything at the seam, the stream of a second source goes on behind closed tokens. -/
theorem Reader.Reads.append (short : (front ++ back).length < UInt32.size - 1)
    (lexed : tokenize front file = .ok tokens) (closed : Closed tokens)
    (more : (Cursor.ofSource back file).hasNext = true) :
    (Reader.ofSource (front ++ back) file).Reads
      (tokens ++ (Cursor.ofSource back file).stream.tokens.map
        (Token.relocate (Position.behind front.toList)))
      (relocateItem (Position.behind front.toList) (Cursor.ofSource back file).stream.ending) := by
  have none : ∀ c ∈ "".toList, Lexeme.isSpace c = true := by simp
  have seamless : front ++ "" = front := String.append_empty
  have joined := @Cursor.stream_append tokens front "" back file (by rwa [seamless]) lexed none
    (.inr closed)
  rw [seamless, more, if_pos rfl] at joined
  exact ⟨joined.1, joined.2, rfl⟩

/-- The end of two sources is the end of the second, unless this has no tokens. -/
theorem Token.closing_append (file : Option String) (tokens others : List Token)
    (move : Position → Position) :
    (Token.closing file (tokens ++ others.map (Token.relocate move))).span.stop =
      if others.isEmpty then (Token.closing file tokens).span.stop
      else move (Token.closing file others).span.stop := by
  simp only [Token.closing, Token.endOfInput, List.getLast?_append, List.getLast?_map]
  cases last : others.getLast? with
  | none =>
      obtain rfl := List.getLast?_eq_none_iff.mp last
      rfl
  | some token =>
      cases others with
      | nil => cases last
      | cons first others => rfl

/-- The first token of a stream is the next token. -/
theorem Cursor.nextToken_of_head {cursor : Cursor} {token : Token}
    (begins : token ∈ cursor.stream.tokens.head?) : cursor.nextToken.1 = .ok token := by
  obtain ⟨others, same⟩ := List.head?_eq_some_iff.mp begins
  have split : cursor.stream.tokens = [token] ++ others := same
  obtain ⟨last, passes, _⟩ := exists_passes split
  cases passes with
  | token read _ => rw [read]

/-! ## A wrong source behind a program -/

namespace Pairing

variable {move : Position → Position} {ending : Except Diagnostic Token}

/-- The tokens of a source, and the same tokens moved. -/
def moved (move : Position → Position) : Pairing Token where
  shown
    | true => id
    | false => Token.relocate move
  move
    | true => move
    | false => id
  same token := ⟨token.relocate move, funext fun member => by cases member <;> rfl⟩

/-- What ends a source, and the same moved. -/
def movedEnding (move : Position → Position) : Except Diagnostic Token → Ending Token
  | .ok final => .ok final
  | .error diagnostic => .error fun
    | true => diagnostic
    | false => diagnostic.relocate move

theorem moved_reads {readers : Bool → Reader} (here : (readers true).Reads tokens ending)
    (there : (readers false).Reads (tokens.map (Token.relocate move))
      (relocateItem move ending)) :
    (moved move).Reads tokens (movedEnding move ending) readers := by
  intro member
  cases member with
  | true =>
      have all : tokens.map ((moved move).shown true) = tokens := List.map_id tokens
      rw [all]
      cases ending <;> exact here
  | false => cases ending <;> exact there

/-- What is blamed for the cause is the same, moved. -/
theorem Blames.moved_eq {diagnostics : Bool → Diagnostic}
    (blames : (moved move).Blames (movedEnding move ending) diagnostics) :
    diagnostics false = (diagnostics true).relocate move := by
  cases blames with
  | item cause token => rfl
  | fault broken =>
      cases ending with
      | ok final => cases broken
      | error fault =>
          cases broken
          rfl

end Pairing

namespace Parse

/-- Where a program begins and how long its loop may be is known before anything is read. -/
theorem programBlock_eq (inner : Productions) (reader : Reader) :
    programBlock inner reader =
      (do
        let body ← program inner (reader.unread + 1)
        return (⟨body,
          ⟨Place.start.inFile reader.cursor.file, (← peek).span.stop⟩⟩ : Block)) reader :=
  rfl

/-- A run that halts behind nothing halts behind statements that have a derivation, too, and with
the same diagnostic moved. -/
theorem programBlock_behind {limit levels : Nat} {reader reader' after : Reader}
    {ending : Except Diagnostic Token} {move : Position → Position} {body : List Statement}
    {diagnostic : Diagnostic} (own : reader.Reads others ending)
    (wrong : programBlock (Productions.within limit levels) reader =
      .error (.failed diagnostic) after)
    (reads : reader'.Reads (tokens ++ others.map (Token.relocate move)) (relocateItem move ending))
    (before : (Part.statements body).From levels (tokens ++ others.map (Token.relocate move))
      (others.map (Token.relocate move))) :
    ∃ after', programBlock (Productions.within limit levels) reader' =
      .error (.failed (diagnostic.relocate move)) after' := by
  have parts := within_readsParts (relocateItem move ending) limit levels
  obtain ⟨fault, last, nothing, broken, failed⟩ | ⟨later, last, fits, stands, same⟩ :=
    program_past parts before (Nat.lt_succ_of_le reads.length_le_unread) reads
  · -- The run over both breaks off right behind the statements, where the second run begins.
    obtain rfl := List.map_eq_nil_iff.mp nothing
    cases ending with
    | ok final => cases broken
    | error ownFault =>
        cases broken
        obtain ⟨seen, looked⟩ := peek_of_fault own rfl
        have halts : program (Productions.within limit levels) (reader.unread + 1) reader =
            .error (.failed ownFault) seen :=
          bind_of_error (bind_of_error (bind_of_error looked))
        rw [programBlock_eq, bind_of_error halts] at wrong
        cases wrong
        rw [programBlock_eq, bind_of_error failed]
        exact ⟨last, rfl⟩
  · -- The run over both goes on, in step with the run over the second source alone.
    rw [List.length_map] at fits
    have goesOn : programBlock (Productions.within limit levels) reader' =
        (do
          let others ← program (Productions.within limit levels) later
          return (⟨body ++ others,
            ⟨Place.start.inFile reader'.cursor.file, (← peek).span.stop⟩⟩ : Block)) last := by
      rw [programBlock_eq, bind_of_same same]
      simp
    have apart := @Pairing.moved_reads _ move ending
      (fun member => bif member then reader else last) own stands
    rw [programBlock_eq] at wrong
    obtain ⟨diagnostics, final, blames, rfl, failed⟩ := Pairing.program_fails
      (fun others final => (⟨body ++ others, ⟨_, final.span.stop⟩⟩ : Block)) apart
      (Nat.lt_succ_of_le own.length_le_unread) fits wrong
    rw [goesOn, ← blames.moved_eq]
    exact ⟨final, failed⟩

end Parse

/-- A source is wrong if the run over its program halts. -/
theorem parse_error_iff {source : String} {halt : Halt} :
    parse source file = .error halt ↔ ∃ after,
      Parse.programBlock (Productions.within Parse.nestingLimit Parse.nestingLimit)
        (Reader.ofSource source file) = .error halt after := by
  have ran : Parse.start Parse.nestingLimit Parse.programBlock (Reader.ofSource source file) =
      Parse.programBlock (Productions.within Parse.nestingLimit Parse.nestingLimit)
        (Reader.ofSource source file) := rfl
  rw [parse, parseWithin, ran]
  generalize Parse.programBlock _ _ = run
  cases run <;> simp

/-- A source that is wrong has something in it. -/
theorem hasNext_of_parse_error {source : String} {halt : Halt}
    (wrong : parse source file = .error halt) :
    (Cursor.ofSource source file).hasNext = true := by
  cases more : (Cursor.ofSource source file).hasNext with
  | true => rfl
  | false =>
      have blank : tokenize source file = .ok [] := by
        rw [tokenize, Cursor.drain_eq_items, TokenStream.gather_items, Cursor.stream_of_end more]
        rfl
      have empty : parse source file = .ok ⟨[], _⟩ := parse_ok_iff.mpr ⟨[], blank, .nil, rfl⟩
      cases empty.symm.trans wrong

/-- A wrong source behind a program, unless it begins with an `else`, is still wrong for the same
cause and at the same place. -/
theorem parse_append_failed (short : (front ++ back).length < UInt32.size - 1)
    (read : parse front file = .ok root) {diagnostic : Diagnostic}
    (wrong : parse back file = .error (.failed diagnostic))
    (next : NextNot (· = .elseWord) (Cursor.ofSource back file).stream.tokens) :
    parse (front ++ back) file =
      .error (.failed (diagnostic.relocate (Position.behind front.toList))) := by
  obtain ⟨tokens, lexed, derives, _⟩ := parse_ok_iff.mp read
  have nextMoved := @NextNot.relocate (Position.behind front.toList) _ _ next
  obtain ⟨closed, before⟩ := derives.program_before nextMoved
  have reads := Reader.Reads.append short lexed closed (hasNext_of_parse_error wrong)
  have own : (Reader.ofSource back file).Reads _ _ := ⟨rfl, rfl, rfl⟩
  rcases parse_error_iff.mp wrong with ⟨after, ran⟩
  exact parse_error_iff.mpr (Parse.programBlock_behind own ran reads before)

/-! ## Two programs -/

/-- A program behind another. -/
theorem parse_append_ok (short : (front ++ back).length < UInt32.size - 1)
    (read : parse front file = .ok root) {other : Block} (further : parse back file = .ok other) :
    parse (front ++ back) file =
      .ok ⟨root.body ++ Statement.relocateAll (Position.behind front.toList) other.body,
        ⟨Place.start.inFile (file.getD Cursor.unnamed),
          if other.body.isEmpty then root.span.stop
          else Position.behind front.toList other.span.stop⟩⟩ := by
  obtain ⟨tokens, lexed, derives, span⟩ := parse_ok_iff.mp read
  obtain ⟨others, lexedBack, derivesBack, spanBack⟩ := parse_ok_iff.mp further
  have moved : (Part.statements (Statement.relocateAll (Position.behind front.toList)
      other.body)).From Parse.nestingLimit
        (others.map (Token.relocate (Position.behind front.toList))) [] :=
    derivesBack.relocate _
  obtain ⟨closed, before⟩ := derives.program_before moved.statements_nextNot_else
  have none : ∀ c ∈ "".toList, Lexeme.isSpace c = true := by simp
  have seamless : front ++ "" = front := String.append_empty
  have joined := @tokenize_append front "" back file tokens (by rwa [seamless]) lexed none
    (.inr closed)
  rw [seamless, lexedBack] at joined
  refine parse_ok_iff.mpr ⟨_, joined, before.chain moved, ?_⟩
  rw [Token.closing_append, derivesBack.isEmpty_eq, span, spanBack]

/-- Programs compose by writing one behind the other, with all positions of the second moved behind
the first.  So do a program and a wrong source that does not begin with an `else`. -/
theorem parse_append (short : (front ++ back).length < UInt32.size - 1)
    (read : parse front file = .ok root) :
    (∀ other, parse back file = .ok other →
        parse (front ++ back) file =
          .ok ⟨root.body ++ Statement.relocateAll (Position.behind front.toList) other.body,
            ⟨Place.start.inFile (file.getD Cursor.unnamed),
              if other.body.isEmpty then root.span.stop
              else Position.behind front.toList other.span.stop⟩⟩) ∧
      ∀ diagnostic, parse back file = .error (.failed diagnostic) →
        (∀ token, (Cursor.ofSource back file).nextToken.1 = .ok token →
          token.kind ≠ .elseWord) →
        parse (front ++ back) file =
          .error (.failed (diagnostic.relocate (Position.behind front.toList))) := by
  refine ⟨fun other further => parse_append_ok short read further, ?_⟩
  intro diagnostic wrong first
  exact parse_append_failed short read wrong fun token begins =>
    first token (Cursor.nextToken_of_head begins)

/-- Behind a conditional that an `else` could go on, and with no space at the seam: an assignment,
and an operator that nothing can begin with. -/
theorem parse_append_seams :
    ∃ root other, parse "if($a)\n$b=1;" none = .ok root ∧ parse "$c=2;" none = .ok other ∧
      parse ("if($a)\n$b=1;" ++ "$c=2;") none =
        .ok ⟨root.body ++ Statement.relocateAll (Position.behind "if($a)\n$b=1;".toList) other.body,
          ⟨Place.start.inFile Cursor.unnamed,
            if other.body.isEmpty then root.span.stop
            else Position.behind "if($a)\n$b=1;".toList other.span.stop⟩⟩ ∧
      ∃ cause, parse "&&;" none = .error (.failed ⟨cause, ⟨0, 1, 1, "shell"⟩⟩) ∧
        parse ("if($a)\n$b=1;" ++ "&&;") none =
          .error (.failed ⟨cause, ⟨12, 2, 6, "shell"⟩⟩) := by
  have reads : (parse "if($a)\n$b=1;" none).isOk = true := by decide +kernel
  have readsOther : (parse "$c=2;" none).isOk = true := by decide +kernel
  have wrong : parse "&&;" none = .error (.failed
      ⟨.unexpectedToken TokenKind.identifiers .logicalAnd "&&", ⟨0, 1, 1, "shell"⟩⟩) := by
    decide +kernel
  have begins :
      (Cursor.ofSource "&&;" none).nextToken.1.toOption.all (·.kind ≠ .elseWord) = true := by
    decide +kernel
  cases read : parse "if($a)\n$b=1;" none with
  | error halt =>
      rw [read] at reads
      cases reads
  | ok root =>
      cases readOther : parse "$c=2;" none with
      | error halt =>
          rw [readOther] at readsOther
          cases readsOther
      | ok other =>
          have joined := (parse_append (by decide) read).1 other readOther
          have failed := (parse_append (by decide) read).2 _ wrong fun token first => by
            rw [first] at begins
            exact of_decide_eq_true begins
          exact ⟨root, other, rfl, rfl, joined, _, wrong, failed⟩

end Scriptlet
