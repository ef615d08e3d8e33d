import Scriptlet.Command.Basic
import Scriptlet.Proofs.Derivation.Productions
import Scriptlet.Proofs.Session.Positions

/-!
# Three ways to drive a cursor

The command lists tokens one by one, a stream yields items and gives up at the first fault, and the
parser pulls tokens in as it needs them and may stop before the end.  All three see one and the same
source: the listing shows the items of the stream, and the parser fails with the fault of the stream
or because of a token in front of it (`drivers_agree`).
-/

namespace Scriptlet

/-! ## Faults lie behind tokens -/

variable {source : String} {file : Option String} {cursor after : Cursor} {token : Token}
  {diagnostic : Diagnostic}

namespace Cursor

/-- The fault that breaks a stream is blamed on an offset of the source that the cursor has in front
of it. -/
theorem stream_fault_offset (stands : cursor.StandsIn source file)
    (broken : cursor.stream.ending = .error diagnostic) :
    ∃ offset, cursor.place.offset ≤ offset ∧ offset ≤ source.length ∧
      diagnostic.position.offset = .ofNat offset := by
  induction cursor using stream_induction with
  | ended cursor nothing =>
      rw [stream_of_end nothing] at broken
      cases broken
  | fault cursor after diagnostic more read =>
      rw [stream_of_fault more read] at broken
      cases broken
      obtain ⟨text, front, position⟩ := nextToken_fault_place read
      have inside := front.length_le
      have whole := stands.offset_add
      refine ⟨cursor.place.offset + text.length, Nat.le_add_right _ _, by omega, ?_⟩
      rw [position]
      simp [Place.inFile]
  | token cursor after token more read ih =>
      have behind := stands.nextToken
      have onward := offset_le_nextToken cursor
      rw [stream_of_token more read] at broken
      rw [read] at behind onward
      obtain ⟨offset, ahead, within, position⟩ := ih behind broken
      exact ⟨offset, Nat.le_trans onward ahead, within, position⟩

end Cursor

/-- The token begins in front of the fault, if there is one. -/
def Token.Before (ending : Except Diagnostic Token) (token : Token) : Prop :=
  ∀ diagnostic, ending = .error diagnostic →
    token.span.start.offset < diagnostic.position.offset

/-- Every token is read in front of the fault that breaks the stream. -/
theorem Cursor.nextToken_before (short : source.length < UInt32.size - 1)
    (stands : cursor.StandsIn source file) (read : cursor.nextToken = (.ok token, after)) :
    token.Before after.stream.ending := by
  intro diagnostic broken
  have behind := stands.nextToken
  rw [read] at behind
  obtain ⟨offset, ahead, within, position⟩ := stream_fault_offset behind broken
  obtain ⟨gap, _, _, real, start, place, _⟩ := nextToken_takes read
  have positive := List.length_pos_iff.mpr real
  rw [place, Place.offset_past, List.length_append] at ahead
  rw [start, position, UInt32.lt_iff_toNat_lt]
  simp only [Place.inFile, Place.offset_past]
  rw [UInt32.toNat_ofNat_of_lt' (by omega), UInt32.toNat_ofNat_of_lt' (by omega)]
  omega

/-- The contract of a reader on the way to the end of a stream.  It halts with the fault of the
stream, or it blames a token in front of the fault. -/
def Contract.towards {source : String} (file : Option String) (ending : Except Diagnostic Token)
    (short : source.length < UInt32.size - 1) : Contract where
  admits cursor lookahead := cursor.StandsIn source file ∧ cursor.stream.ending = ending ∧
    ∀ shown ∈ lookahead, shown.Before ending
  abandons _ _ := True
  token shown := shown.Before ending
  point _ := True
  halt halt := ∀ diagnostic, halt = .failed diagnostic →
    ending = .error diagnostic ∨ diagnostic.cause.phase = .syntactic ∧
      ∀ fault, ending = .error fault → diagnostic.position.offset < fault.position.offset
  abandoned _ := trivial
  held := fun ⟨_, _, before⟩ => before _ rfl
  used := fun ⟨stands, ends, _⟩ => ⟨stands, ends, by rintro _ ⟨⟩⟩
  read := by
    intro cursor after shown more ⟨stands, ends, _⟩ read
    have behind := stands.nextToken
    have before := Cursor.nextToken_before short stands read
    rw [read] at behind
    rw [Cursor.stream_of_token more read] at ends
    refine ⟨behind, ends, ?_⟩
    rintro other ⟨⟩
    rwa [← ends]
  fault := by
    intro cursor after diagnostic more ⟨_, ends, _⟩ read
    rw [Cursor.stream_of_fault more read] at ends
    refine ⟨trivial, ?_⟩
    rintro other ⟨⟩
    exact .inl ends.symm
  ended := by
    intro cursor nothing ⟨stands, ends, _⟩
    refine ⟨stands, ends, ?_⟩
    intro shown _ diagnostic broken
    rw [Cursor.stream_of_end nothing] at ends
    cases ends.trans broken
  points _ _ _ := trivial
  blamed := by
    rintro shown cause before syntactic diagnostic ⟨⟩
    exact .inr ⟨syntactic, before⟩
  endless := by
    rintro diagnostic ⟨⟩
  origin _ := trivial

/-! ## The parser and the stream -/

/-- Parsing fails with the fault of the stream, or blames a token in front of it. -/
theorem parse_failed (short : source.length < UInt32.size - 1)
    (wrong : parse source file = .error (.failed diagnostic)) :
    (Cursor.ofSource source file).stream.ending = .error diagnostic ∨
      diagnostic.cause.phase = .syntactic ∧
        ∀ fault, (Cursor.ofSource source file).stream.ending = .error fault →
          diagnostic.position.offset < fault.position.offset := by
  have kept := @parse_keeps
    (.towards file (Cursor.ofSource source file).stream.ending short) source file
    ⟨Cursor.standsIn_ofSource source file, rfl, by rintro _ ⟨⟩⟩
  rw [wrong] at kept
  exact kept diagnostic rfl

/-- A source cannot be cut into tokens because of the fault that breaks its stream. -/
theorem tokenize_eq_error_iff :
    tokenize source file = .error diagnostic ↔
      (Cursor.ofSource source file).stream.ending = .error diagnostic := by
  rw [tokenize, Cursor.drain_eq_items, TokenStream.gather_items]
  cases (Cursor.ofSource source file).stream.ending <;> simp [Except.map]

/-! ## The listing and the stream -/

namespace TokenStream

/-- The fault that breaks a stream, if there is one. -/
def fault? (stream : TokenStream) : Option Diagnostic :=
  match stream.ending with
  | .ok _ => none
  | .error diagnostic => some diagnostic

theorem items_eq (stream : TokenStream) :
    stream.items = stream.tokens.map .ok ++ stream.fault?.toList.map .error := by
  rw [items, fault?]
  cases stream.ending <;> rfl

end TokenStream

/-- The tokens of a source, by the fault that breaks its stream. -/
theorem tokenize_eq (source : String) (file : Option String) :
    tokenize source file = match (Cursor.ofSource source file).stream.fault? with
      | none => .ok (Cursor.ofSource source file).stream.tokens
      | some diagnostic => .error diagnostic := by
  rw [tokenize, Cursor.drain_eq_items, TokenStream.gather_items, TokenStream.fault?]
  cases (Cursor.ofSource source file).stream.ending <;> rfl

namespace Command

/-- The listing takes the tokens off the stream, up to the fault that breaks it. -/
theorem listTokens_eq (cursor : Cursor) :
    listTokens cursor = (cursor.stream.tokens, cursor.stream.fault?) := by
  induction cursor using Cursor.stream_induction with
  | ended cursor nothing =>
      rw [listTokens, Cursor.stream_of_end nothing]
      simp only [nothing, Bool.false_eq_true, if_false]
      rfl
  | fault cursor after diagnostic more read =>
      rw [listTokens, Cursor.stream_of_fault more read, if_pos more]
      split
      next token reached other => cases read.symm.trans other
      next other reached same =>
        cases read.symm.trans same
        rfl
  | token cursor after token more read ih =>
      rw [listTokens, Cursor.stream_of_token more read, if_pos more]
      split
      next other reached same =>
        cases read.symm.trans same
        rw [ih]
        rfl
      next diagnostic reached other => cases read.symm.trans other

/-- An item of a stream as the command prints it. -/
def itemText (source : String) : Except Diagnostic Token → String
  | .ok token => token.listing ++ "\n"
  | .error diagnostic => diagnostic.render source

/-- The command prints the items of the stream and tells whether one of them is a fault. -/
theorem tokenReport_eq (source name : String) :
    (tokenReport source name).output =
        String.join ((Cursor.ofSource source (some name)).drain.1.map (itemText source)) ∧
      ((tokenReport source name).status = 0 ↔
        ∃ tokens, tokenize source (some name) = .ok tokens) := by
  rw [tokenReport, listTokens_eq, tokenize_eq, Cursor.drain_eq_items, TokenStream.items_eq]
  cases (Cursor.ofSource source (some name)).stream.fault? with
  | none => simp [itemText, Function.comp_def]
  | some diagnostic => simp [itemText, Function.comp_def]

/-- The command prints a tree if and only if the source can be read. -/
theorem treeReport_status (source name : String) :
    (treeReport source name).status = 0 ↔ ∃ root, parse source (some name) = .ok root := by
  -- The equation of the definition is slow to come by, because it compares what `parse` gives.
  delta treeReport
  split
  next root read => simp [read]
  next diagnostic wrong => simp [wrong]
  next wrong => simp [wrong]

/-- Whenever the command can print the tree of a file, it can list its tokens. -/
theorem run_status (directory : Directory) (path : String)
    (printed : (run directory [path, "--ast"]).status = 0) : (run directory [path]).status = 0 := by
  simp only [run, Invocation.ofArguments?, if_true] at printed ⊢
  cases content : directory.readText path with
  | error failure =>
      rw [content] at printed
      exact printed
  | ok source =>
      rw [content] at printed
      obtain ⟨root, read⟩ := (treeReport_status source _).mp printed
      exact (tokenReport_eq source _).2.mpr (tokenize_of_parse read)

end Command

/-! ## Agreement -/

/-- The listing of the command, the stream of items and the parser tell the same about a source. -/
structure DriversAgree (source : String) (file : Option String) : Prop where
  items : (Cursor.ofSource source file).drain.1 =
    (Command.listTokens (.ofSource source file)).1.map .ok ++
      (Command.listTokens (.ofSource source file)).2.toList.map .error
  tokens : tokenize source file = match (Command.listTokens (.ofSource source file)).2 with
    | none => .ok (Command.listTokens (.ofSource source file)).1
    | some diagnostic => .error diagnostic
  listing : ∀ name, file = some name → (Command.tokenReport source name).output =
    String.join ((Cursor.ofSource source file).drain.1.map (Command.itemText source))
  status : ∀ name, file = some name → ((Command.tokenReport source name).status = 0 ↔
    (Command.listTokens (.ofSource source file)).2 = none)
  readable : ∀ root, parse source file = .ok root → ∃ tokens, tokenize source file = .ok tokens
  exits : ∀ directory path, (Command.run directory [path, "--ast"]).status = 0 →
    (Command.run directory [path]).status = 0
  lexical : ∀ diagnostic, parse source file = .error (.failed diagnostic) →
    diagnostic.cause.phase = .lexical → tokenize source file = .error diagnostic
  earlier : ∀ fault, tokenize source file = .error fault →
    parse source file = .error (.failed fault) ∨
      ∃ diagnostic, parse source file = .error (.failed diagnostic) ∧
        diagnostic.cause.phase = .syntactic ∧
        diagnostic.position.offset < fault.position.offset

/-- However a cursor is driven, the same comes out. -/
theorem drivers_agree {source : String} (file : Option String)
    (short : source.length < UInt32.size - 1) : DriversAgree source file where
  items := by rw [Command.listTokens_eq, Cursor.drain_eq_items, TokenStream.items_eq]
  tokens := by rw [Command.listTokens_eq, tokenize_eq]
  listing := by
    rintro name rfl
    exact (Command.tokenReport_eq source name).1
  status := by
    rintro name rfl
    rw [(Command.tokenReport_eq source name).2, Command.listTokens_eq, tokenize_eq]
    cases (Cursor.ofSource source (some name)).stream.fault? <;> simp
  readable root read := tokenize_of_parse read
  exits := Command.run_status
  lexical := by
    intro diagnostic wrong lexical
    obtain broken | ⟨syntactic, _⟩ := parse_failed short wrong
    · exact tokenize_eq_error_iff.mpr broken
    · cases lexical.symm.trans syntactic
  earlier := by
    intro fault lexed
    have broken := tokenize_eq_error_iff.mp lexed
    cases read : parse source file with
    | ok root =>
        obtain ⟨tokens, other⟩ := tokenize_of_parse read
        cases other.symm.trans lexed
    | error halt =>
        cases halt with
        | endless => exact absurd read (parse_ne_endless source file)
        | failed diagnostic =>
            obtain same | ⟨syntactic, before⟩ := parse_failed short read
            · cases same.symm.trans broken
              exact .inl rfl
            · exact .inr ⟨diagnostic, rfl, syntactic, before fault broken⟩

/-- A source that is wrong twice: the parser stops at the missing `;`, before it comes to the
literal that breaks the stream. -/
theorem drivers_agree_unclosed :
    "$x = 1 $y = 'ab;".length < UInt32.size - 1 ∧
      (tokenize "$x = 1 $y = 'ab;" (some "a.sg")).isOk = false ∧
      DriversAgree "$x = 1 $y = 'ab;" (some "a.sg") :=
  ⟨by decide, by decide +kernel, drivers_agree (some "a.sg") (by decide)⟩

end Scriptlet
