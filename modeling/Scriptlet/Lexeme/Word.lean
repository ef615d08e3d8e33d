import Scriptlet.Lexeme.Scan
import Scriptlet.Token.Basic

/-!
# Words and symbols

Variables, reserved words and type names. A word is the longest run of its letters. A variable is a
sigil and at least one name character; a run of lower-case letters has to be a reserved word, and an
upper-case letter with the letters after it has to be a type name.

A symbol is read by taking the whole run of symbol characters and giving characters back from its
end until what is left is a symbol of the vocabulary. If nothing is left, the first character of
the run is unknown and all of the text is left where it was.
-/

namespace Scriptlet.Lexeme

/-! ## Words -/

/-- A name is private if it starts with an underscore. -/
def visibilityOf (first : Char) : Visibility := if first = '_' then .owner else .everyone

/-- A variable, given the text after its sigil. -/
def variableName (kind : VariableKind) (text : List Char) : Scan :=
  match text.takeWhile isNamePart with
  | [] => .faulty (.invalidIdentifier (String.ofList [kind.sigil])) [kind.sigil] text
  | first :: more =>
      .verbatim (.identifier kind (visibilityOf first)) (kind.sigil :: first :: more)
        (text.dropWhile isNamePart)

/-- The longest run of the characters accepted, which has to be in the vocabulary. -/
def vocabularyWord (accepted : Char → Bool) (vocabulary : Vocabulary) (unknown : String → Cause)
    (text : List Char) : Scan :=
  let word := text.takeWhile accepted
  match vocabulary.kindOf? word with
  | some kind => .verbatim kind word (text.dropWhile accepted)
  | none => .faulty (unknown (String.ofList word)) word (text.dropWhile accepted)

/-- A reserved word. -/
def reservedWord (text : List Char) : Scan :=
  vocabularyWord Char.isLower .reserved .unknownKeyword text

/-- A type name. -/
def typeName (text : List Char) : Scan :=
  vocabularyWord Char.isAlpha .types .unknownType text

theorem variableName_of (kind : VariableKind) (text : List Char) :
    (variableName kind text).Of (kind.sigil :: text) := by
  unfold variableName
  split
  next => exact Scan.faulty_of rfl
  next first more run =>
    refine Scan.verbatim_of ?_ (by simp)
    rw [← run, List.cons_append, List.takeWhile_append_dropWhile]

theorem vocabularyWord_of (accepted : Char → Bool) (vocabulary : Vocabulary)
    (unknown : String → Cause) (text : List Char) (named : vocabulary.kindOf? [] = none) :
    (vocabularyWord accepted vocabulary unknown text).Of text := by
  unfold vocabularyWord
  dsimp only
  split
  next kind found =>
    refine Scan.verbatim_of List.takeWhile_append_dropWhile ?_
    intro empty
    rw [empty, named] at found
    exact absurd found (by simp)
  next => exact Scan.faulty_of List.takeWhile_append_dropWhile

theorem reservedWord_of (text : List Char) : (reservedWord text).Of text :=
  vocabularyWord_of _ _ _ _ rfl

theorem typeName_of (text : List Char) : (typeName text).Of text :=
  vocabularyWord_of _ _ _ _ rfl

/-! ## Symbols -/

/-- The symbols, spelled backwards. -/
def symbolsBackwards : Vocabulary :=
  Vocabulary.symbols.map fun entry => (entry.1.reverse, entry.2)

/-- Give characters back from the end of a run, which is given backwards, until a symbol is left. -/
def giveBack : List Char → Option (List Char × TokenKind)
  | [] => none
  | last :: earlier =>
      match symbolsBackwards.kindOf? (last :: earlier) with
      | some kind => some ((last :: earlier).reverse, kind)
      | none => giveBack earlier

/-- An operator or a punctuation mark. -/
def symbol (text : List Char) : Scan :=
  match giveBack (text.takeWhile isSymbolPart).reverse with
  | some (spelling, kind) => .verbatim kind spelling (text.drop spelling.length)
  | none => .faulty (.unknownSymbol (String.ofList (text.take 1))) [] text

/-- What is left after giving back is not empty, and a front part of the run. -/
theorem giveBack_eq_some {reversed spelling : List Char} {kind : TokenKind}
    (left : giveBack reversed = some (spelling, kind)) :
    spelling ≠ [] ∧ spelling <+: reversed.reverse := by
  induction reversed with
  | nil => simp [giveBack] at left
  | cons last earlier ih =>
      unfold giveBack at left
      split at left
      next =>
        obtain ⟨rfl, _⟩ := Prod.mk.inj (Option.some.inj left)
        exact ⟨by simp, List.prefix_refl _⟩
      next =>
        obtain ⟨nonempty, front⟩ := ih left
        refine ⟨nonempty, front.trans ?_⟩
        rw [List.reverse_cons]
        exact List.prefix_append _ _

theorem symbol_of (text : List Char) : (symbol text).Of text := by
  unfold symbol
  split
  next spelling kind left =>
    obtain ⟨nonempty, front⟩ := giveBack_eq_some left
    rw [List.reverse_reverse] at front
    have taken := List.prefix_iff_eq_append.mp (front.trans (List.takeWhile_prefix isSymbolPart))
    exact Scan.verbatim_of taken nonempty
  next => exact Scan.faulty_of rfl

end Scriptlet.Lexeme
