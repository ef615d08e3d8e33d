import Scriptlet.Cursor.Basic
import Scriptlet.Proofs.Lexing.Symbols

/-!
# Spellings

A scan that reads a token takes exactly the characters that the token is spelled with, quotes
included, and a token that was read never stands for the end of the input.  A scan that fails blames
the text and not its syntax.  Both are one predicate on scans, `Scan.Spelled`, which every scanner
meets and `scan_spelled` collects.
-/

namespace Scriptlet

namespace TokenKind

/-- The characters of a token, given its kind and its value. -/
def spell (kind : TokenKind) (value : List Char) : List Char :=
  match kind with
  | .stringLiteral => '"' :: value ++ ['"']
  | .characterLiteral => '\'' :: value ++ ['\'']
  | _ => value

/-- Kinds of tokens that are read from the source and are spelled as their value. -/
def isPlain (kind : TokenKind) : Bool :=
  kind ≠ .stringLiteral ∧ kind ≠ .characterLiteral ∧ kind ≠ .endOfInput

theorem spell_of_isPlain {kind : TokenKind} (plain : kind.isPlain = true)
    (value : List Char) : kind.spell value = value := by
  cases kind with
  | stringLiteral => simp [isPlain] at plain
  | characterLiteral => simp [isPlain] at plain
  | _ => rfl

theorem ne_endOfInput_of_isPlain {kind : TokenKind} (plain : kind.isPlain = true) :
    kind ≠ .endOfInput := by
  rintro rfl
  simp [isPlain] at plain

end TokenKind

/-- What a token says, wherever it stands. -/
def Token.content (token : Token) : TokenKind × String := (token.kind, token.value)

/-- A token as it stands in the source is its value with the quotes that its kind asks for. -/
theorem Token.toList_sourceText (token : Token) :
    token.sourceText.toList = token.kind.spell token.value.toList := by
  cases token with
  | mk kind value span => cases kind <;> simp [sourceText, TokenKind.spell]

namespace Lexeme

/-- `scan.Spelled` says that a token read is spelled by the characters taken and is not the end of
the input, and that a fault is a lexical one. -/
structure Scan.Spelled (scan : Scan) : Prop where
  spelling : ∀ kind value, scan.reading = .token kind value → scan.taken = kind.spell value
  real : ∀ kind value, scan.reading = .token kind value → kind ≠ .endOfInput
  lexical : ∀ cause ahead, scan.reading = .fault cause ahead → cause.phase = .lexical

namespace Scan

theorem verbatim_spelled {kind : TokenKind} (plain : kind.isPlain = true)
    (taken rest : List Char) : (verbatim kind taken rest).Spelled where
  spelling _ _ token := by
    rcases Reading.token.inj token with ⟨rfl, rfl⟩
    exact (TokenKind.spell_of_isPlain plain _).symm
  real _ _ token := by
    rcases Reading.token.inj token with ⟨rfl, _⟩
    exact TokenKind.ne_endOfInput_of_isPlain plain
  lexical _ _ fault := by simp [verbatim] at fault

/-- Any fault with a lexical cause will do, wherever it is blamed. -/
theorem fault_spelled {scan : Scan} {cause : Cause} {ahead : Nat}
    (fault : scan.reading = .fault cause ahead) (lexical : cause.phase = .lexical) :
    scan.Spelled where
  spelling _ _ token := by simp [fault] at token
  real _ _ token := by simp [fault] at token
  lexical _ _ other := by
    rw [fault] at other
    rcases Reading.fault.inj other with ⟨rfl, _⟩
    exact lexical

end Scan

/-! ## Words and symbols -/

/-- A vocabulary of plain kinds gives plain kinds. -/
theorem isPlain_of_kindOf? {vocabulary : Vocabulary}
    (plain : ∀ entry ∈ vocabulary, entry.2.isPlain = true) {spelling : List Char}
    {kind : TokenKind} (found : vocabulary.kindOf? spelling = some kind) :
    kind.isPlain = true := by
  rcases List.lookup_eq_some_iff.mp found with ⟨before, after, rfl, _⟩
  exact plain (spelling, kind) (by simp)

theorem variableName_spelled (kind : VariableKind) (text : List Char) :
    (variableName kind text).Spelled := by
  rw [variableName]
  split
  next => exact Scan.fault_spelled rfl rfl
  next first more _ => exact Scan.verbatim_spelled rfl _ _

theorem vocabularyWord_spelled (accepted : Char → Bool) {vocabulary : Vocabulary}
    {unknown : String → Cause} (plain : ∀ entry ∈ vocabulary, entry.2.isPlain = true)
    (lexical : ∀ word, (unknown word).phase = .lexical) (text : List Char) :
    (vocabularyWord accepted vocabulary unknown text).Spelled := by
  rw [vocabularyWord]
  split
  next kind found => exact Scan.verbatim_spelled (isPlain_of_kindOf? plain found) _ _
  next => exact Scan.fault_spelled rfl (lexical _)

theorem symbol_spelled (text : List Char) : (symbol text).Spelled := by
  rw [symbol]
  split
  next spelling kind left =>
    have found := (giveBack_eq_some_iff.mp left).2
    exact Scan.verbatim_spelled (isPlain_of_kindOf? (by decide) found) _ _
  next => exact Scan.fault_spelled rfl rfl

/-! ## Numbers and quoted literals -/

theorem isPlain_of_verdict {state : Number.State} {kind : TokenKind}
    (verdict : state.verdict = .ok kind) : kind.isPlain = true := by
  cases state <;> simp [Number.State.verdict] at verdict <;> subst verdict <;> rfl

theorem number_spelled (text : List Char) : (number text).Spelled := by
  rw [number]
  split
  next kind verdict => exact Scan.verbatim_spelled (isPlain_of_verdict verdict) _ _
  next => exact Scan.fault_spelled rfl rfl

theorem quoted_spelled {taken rest value : List Char} {kind : TokenKind}
    (spelling : taken = kind.spell value) (real : kind ≠ .endOfInput) :
    Scan.Spelled ⟨taken, rest, .token kind value⟩ where
  spelling _ _ token := by
    rcases Reading.token.inj token with ⟨rfl, rfl⟩
    exact spelling
  real _ _ token := by
    rcases Reading.token.inj token with ⟨rfl, _⟩
    exact real
  lexical _ _ fault := by simp at fault

theorem stringLiteral_spelled (text : List Char) : (stringLiteral text).Spelled := by
  rw [stringLiteral]
  split
  next => exact quoted_spelled rfl (by decide)
  next => exact Scan.fault_spelled rfl rfl
  next => exact Scan.fault_spelled rfl rfl

theorem characterLiteral_spelled (text : List Char) : (characterLiteral text).Spelled := by
  rw [characterLiteral]
  split
  next => exact Scan.fault_spelled rfl rfl
  next =>
    split
    next => exact Scan.fault_spelled rfl rfl
    next => exact Scan.fault_spelled rfl rfl
    next => exact Scan.fault_spelled rfl rfl
    next =>
      split
      next => exact quoted_spelled rfl (by decide)
      next => exact Scan.fault_spelled rfl rfl

/-- Whatever is scanned, a token is spelled by what was taken and a fault is lexical. -/
theorem scan_spelled (text : List Char) : (scan text).Spelled := by
  rw [scan.eq_def]
  split
  next => exact Scan.fault_spelled rfl rfl
  next character text =>
    split
    next => exact symbol_spelled _
    next =>
      split
      next kind _ => exact variableName_spelled kind text
      next =>
        repeat' split
        · exact number_spelled _
        · exact stringLiteral_spelled text
        · exact characterLiteral_spelled text
        · exact symbol_spelled _
        · exact vocabularyWord_spelled _ (by decide) (fun _ => rfl) _
        · exact vocabularyWord_spelled _ (by decide) (fun _ => rfl) _
        · exact Scan.fault_spelled rfl rfl

end Lexeme

end Scriptlet
