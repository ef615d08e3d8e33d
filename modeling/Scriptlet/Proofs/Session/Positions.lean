import Scriptlet.Proofs.Reading.Statements
import Scriptlet.Proofs.Session.Contract

/-!
# Positions are true

Every position that comes out of a source has the line and the column of its offset: in what a
cursor replies, in tokens, in trees and in diagnostics (`positions_trueThroughout`).  For readers
this is a contract.  It adds that the lookahead, if there is one, ends where the cursor stands.
-/

namespace Scriptlet

variable {source : String} {file : Option String} {bound : Nat}

/-- A cursor in a source, at least as far as an offset, with the token that was read last. -/
structure Cursor.Holds (source : String) (file : Option String) (bound : Nat) (cursor : Cursor)
    (lookahead : Option Token) : Prop where
  stands : cursor.StandsIn source file
  beyond : bound ≤ cursor.place.offset
  adjacent : ∀ shown ∈ lookahead, shown.span.stop = cursor.position
  reported : ∀ shown ∈ lookahead, ∀ position ∈ shown.span.positions, position.Reported source file

namespace Cursor.Holds

variable {cursor after : Cursor} {shown : Token}

theorem used {lookahead : Option Token} (holds : cursor.Holds source file bound lookahead) :
    cursor.Holds source file bound none := ⟨holds.stands, holds.beyond, by simp, by simp⟩

/-- The reading goes on behind a fault, from where it was met. -/
theorem moved (holds : cursor.Holds source file bound none) :
    cursor.nextToken.2.Holds source file bound none :=
  ⟨holds.stands.nextToken, Nat.le_trans holds.beyond (offset_le_nextToken cursor), by simp,
    by simp⟩

theorem read (holds : cursor.Holds source file bound none)
    (reading : cursor.nextToken = (.ok shown, after)) :
    after.Holds source file bound (some shown) := by
  have told := holds.stands.report_nextToken
  have behind := holds.moved
  rw [reading] at told behind
  refine ⟨behind.stands, behind.beyond, ?_, ?_⟩
  · rintro other ⟨⟩
    exact nextToken_stop reading
  · rintro other ⟨⟩
    exact told

theorem ended (holds : cursor.Holds source file bound none) :
    cursor.Holds source file bound (some (.endOfInput cursor.position)) := by
  refine ⟨holds.stands, holds.beyond, ?_, ?_⟩
  · rintro other ⟨⟩
    rfl
  · rintro other ⟨⟩
    simpa [Token.endOfInput, Span.positions] using holds.stands.position

end Cursor.Holds

/-- The contract of a reader in a source that has come at least as far as an offset. -/
def Contract.inSource (source : String) (file : Option String) (bound : Nat) : Contract where
  admits := Cursor.Holds source file bound
  abandons := Cursor.Holds source file bound
  token shown := ∀ position ∈ shown.span.positions, position.Reported source file
  point position := position.Reported source file
  halt halt := ∀ diagnostic, halt = .failed diagnostic → diagnostic.position.Reported source file
  abandoned holds := holds
  held holds := holds.reported _ rfl
  used holds := holds.used
  read _ holds reading := holds.read reading
  fault := by
    intro cursor after diagnostic _ holds reading
    have told := holds.stands.report_nextToken
    have behind := holds.moved
    rw [reading] at told behind
    refine ⟨behind, ?_⟩
    rintro other ⟨⟩
    exact told _ (by simp [itemPositions])
  ended _ holds := holds.ended
  points reported := reported
  blamed := by
    rintro shown cause reported _ diagnostic ⟨⟩
    exact reported _ (by simp [Span.positions])
  endless := by
    rintro diagnostic ⟨⟩
  origin := by
    rintro cursor lookahead ⟨⟨passed, whole, place, named⟩, _, _, _⟩
    exact ⟨[], List.nil_prefix, by rw [named]; rfl⟩

/-! ## Tokens and trees -/

/-- The positions in the tokens of a source, or in what is wrong with it. -/
def lexedPositions : Except Diagnostic (List Token) → List Position
  | .ok tokens => tokens.flatMap fun token => token.span.positions
  | .error diagnostic => [diagnostic.position]

/-- The positions in the tree of a source, or in what is wrong with it. -/
def parsedPositions : Except Halt Block → List Position
  | .ok root => root.positions
  | .error (.failed diagnostic) => [diagnostic.position]
  | .error .endless => []

theorem tokenize_reported (source : String) (file : Option String) :
    ∀ position ∈ lexedPositions (tokenize source file), position.Reported source file := by
  have told := Cursor.stream_reported (Cursor.standsIn_ofSource source file)
  rw [tokenize, Cursor.drain_eq_items, TokenStream.gather_items]
  rw [TokenStream.items] at told
  cases ending : (Cursor.ofSource source file).stream.ending with
  | error diagnostic =>
      intro position member
      cases List.mem_singleton.mp member
      exact told (.error diagnostic) (by simp [ending]) _ (by simp [itemPositions])
  | ok final =>
      intro position member
      obtain ⟨token, among, inside⟩ := List.mem_flatMap.mp member
      exact told (.ok token) (by simp [among]) position inside

theorem parse_reported (source : String) (file : Option String) :
    ∀ position ∈ parsedPositions (parse source file), position.Reported source file := by
  have kept := @parse_keeps (.inSource source file 0) source file
    ⟨Cursor.standsIn_ofSource source file, Nat.zero_le _, by rintro _ ⟨⟩, by rintro _ ⟨⟩⟩
  split at kept
  next root read =>
    rw [read]
    exact kept
  next halt read =>
    rw [read]
    cases halt with
    | endless => simp [parsedPositions]
    | failed diagnostic =>
        intro position member
        cases List.mem_singleton.mp member
        exact kept diagnostic rfl

/-- The language lets nothing repeat for ever. -/
theorem parse_ne_endless (source : String) (file : Option String) :
    parse source file ≠ .error .endless := by
  obtain ⟨position, deep⟩ | agrees := parse_eq_program source file
  · rw [deep]
    simp
  · split at agrees
    next body _ =>
      obtain ⟨final, _, read⟩ := agrees
      rw [read]
      simp
    next diagnostic _ =>
      rw [agrees]
      simp

/-! ## All positions of a source -/

/-- Nothing that is ever said about a source has a position that is not true.  Sessions with a
cursor may ask one thing at a time in any order. -/
structure TrueThroughout (source : String) (file : Option String) : Prop where
  initially : (Cursor.ofSource source file).Tracks source file
  forward : ∀ requests : List Cursor.Request,
    (∀ request ∈ requests, request ∈ Cursor.Request.stepwise) →
    ((Cursor.Session.ofCursor (.ofSource source file)).run requests).Pairwise
      fun step later => step.2.cursor.place.offset ≤ later.2.cursor.place.offset
  sessions : ∀ requests : List Cursor.Request,
    (∀ request ∈ requests, request ∈ Cursor.Request.stepwise) →
    ∀ before step later,
      (Cursor.Session.ofCursor (.ofSource source file)).run requests = before ++ step :: later →
      (∀ earlier ∈ before, earlier.1.endsStream = false) →
      Cursor.Session.Truthful source file step later
  tokens : ∀ position ∈ lexedPositions (tokenize source file), position.TrueIn source file
  tree : ∀ position ∈ parsedPositions (parse source file), position.TrueIn source file
  finite : parse source file ≠ .error .endless

/-- Every position is the true coordinate of its offset, as long as the source has room for the
coordinates. -/
theorem positions_trueThroughout (short : source.length < UInt32.size - 1) :
    TrueThroughout source file where
  initially := (Cursor.standsIn_ofSource source file).tracks short
  forward _ stepwise := (Cursor.Session.run_forward stepwise).2
  sessions _ stepwise _ _ _ split unended :=
    Cursor.Session.run_truthful short stepwise (Cursor.standsIn_ofSource source file) split unended
  tokens position member := (tokenize_reported source file position member).trueIn short
  tree position member := (parse_reported source file position member).trueIn short
  finite := parse_ne_endless source file

/-- A source with a fault in the middle of a literal.  A session that asks again behind this fault
meets two more, and the last of them ends the stream. -/
theorem positions_trueThroughout_literals :
    "$x =\n '\\q' $y\n 'ab'; $z".length < UInt32.size - 1 ∧
      (((Cursor.Session.ofCursor (.ofSource "$x =\n '\\q' $y\n 'ab'; $z" none)).run
          [.nextToken, .nextToken, .nextToken, .nextToken, .next, .nextToken, .next, .hasNext]).map
        fun step => step.1.endsStream) = [false, false, false, false, true, false, false, false] ∧
      TrueThroughout "$x =\n '\\q' $y\n 'ab'; $z" none :=
  ⟨by decide, by decide +kernel, positions_trueThroughout (by decide)⟩

end Scriptlet
