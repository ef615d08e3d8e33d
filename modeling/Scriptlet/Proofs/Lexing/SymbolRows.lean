import Mathlib.Algebra.Ring.Parity
import Scriptlet.Proofs.Lexing.Slice

/-!
# Rows of symbols

Where a symbol is asked for, the longest one at the front of the text is the token, and the first
two characters of the text decide about it (`Cursor.ReadsSymbol`).  A text of nothing but symbol
characters can therefore be cut into tokens exactly if it is symbols in a row
(`Cursor.ends_iff_symbolRow`).

Ampersands and bars are symbols only by twos and a caret is part of no symbol.  Whether a text is a
row of symbols can be told from its maximal runs of these characters (`symbolRow_iff`).
-/

namespace Scriptlet

namespace Lexeme

variable {character other : Char} {text : List Char} {entry : List Char × TokenKind}

/-! ## Symbol characters -/

theorem isSpace_of_isSymbolPart (part : isSymbolPart character = true) :
    isSpace character = false := by
  have visible := of_isSymbolPart (fun c => !isSpace c) (by decide) part
  rwa [Bool.not_eq_true'] at visible

/-- Symbol characters make an operator of a percent sign before them. -/
theorem isPercentOperator_of_parts (parts : ∀ c ∈ text, isSymbolPart c = true) :
    isPercentOperator text = true := by
  cases text with
  | nil => rfl
  | cons first others =>
      exact of_isSymbolPart (fun c => !isNamePart c) (by decide) (parts first List.mem_cons_self)

/-- Where a symbol character stands, a symbol is read, unless it is the sigil of a name. -/
theorem scan_of_isSymbolPart (part : isSymbolPart character = true)
    (operator : character = '%' → isPercentOperator text = true) :
    scan (character :: text) = symbol (character :: text) := by
  by_cases percent : character = '%'
  · simp [scan, percent, operator percent]
  · have table := of_isSymbolPart (fun c => c = '%' || !((VariableKind.ofSigil? c).isSome ||
      c = '.' || c.isDigit || c = '"' || c = '\'')) (by decide) part
    have unlike : VariableKind.ofSigil? character = none ∧ character ≠ '.' ∧
        character.isDigit = false ∧ character ≠ '"' ∧ character ≠ '\'' := by
      simpa [percent, and_assoc] using table
    simp [scan, percent, unlike, part]

/-! ## Symbols in a row -/

/-- A text that is symbols of the vocabulary, one behind the other. -/
inductive SymbolRow : List Char → Prop where
  | nil : SymbolRow []
  | cons {entry : List Char × TokenKind} {rest : List Char} (listed : entry ∈ Vocabulary.symbols)
      (more : SymbolRow rest) : SymbolRow (entry.1 ++ rest)

/-- A row of symbols goes on behind its first symbol as a row of symbols. -/
theorem symbolRow_append_iff (listed : entry ∈ Vocabulary.symbols) :
    SymbolRow (entry.1 ++ text) ↔ SymbolRow text := by
  refine ⟨fun row => ?_, .cons listed⟩
  generalize whole : entry.1 ++ text = all at row
  cases row with
  | nil => exact absurd (List.append_eq_nil_iff.mp whole).1 (ne_nil_of_mem_symbols entry listed)
  | @cons first rest listedFirst more =>
      have isLongest : IsLongestSymbol (first.1 ++ rest) entry :=
        isLongestSymbol_iff.mpr ⟨listed, whole ▸ List.prefix_append _ _⟩
      have same := isLongest.unique
        (isLongestSymbol_iff.mpr ⟨listedFirst, List.prefix_append _ _⟩)
      subst same
      exact List.append_cancel_left whole ▸ more

/-! ## Runs of one character -/

/-- Every maximal run of the character in the text has even length. -/
def RunsEven (character : Char) (text : List Char) : Prop :=
  ∀ before count after, text = before ++ List.replicate count character ++ after →
    before.getLast? ≠ some character → after.head? ≠ some character → Even count

theorem runsEven_nil (character : Char) : RunsEven character [] := by
  intro before count after split _ _
  have nothing : before = [] ∧ count = 0 ∧ after = [] := by simpa using split
  exact nothing.2.1 ▸ Even.zero

theorem runsEven_cons_of_ne (unlike : other ≠ character) :
    RunsEven character (other :: text) ↔ RunsEven character text := by
  have last : ∀ before : List Char,
      (other :: before).getLast? ≠ some character ↔ before.getLast? ≠ some character := by
    intro before
    cases before with
    | nil => simp [unlike]
    | cons => rw [List.getLast?_cons_cons]
  constructor
  · intro even before count after split begins ends
    exact even (other :: before) count after (congrArg _ split) ((last before).mpr begins) ends
  · intro even before count after split begins ends
    cases before with
    | nil =>
        cases count with
        | zero => exact Even.zero
        | succ => exact absurd (List.cons.inj split).1 unlike
    | cons first before =>
        obtain ⟨rfl, tail⟩ := List.cons.inj split
        exact even before count after tail ((last before).mp begins) ends

/-- Two more of a character at the front lengthen the run there, or are a run of their own. -/
theorem runsEven_cons_cons :
    RunsEven character (character :: character :: text) ↔ RunsEven character text := by
  constructor
  · intro even before count after split begins ends
    cases before with
    | nil =>
        have longer := even [] (count + 2) after (congrArg (character :: character :: ·) split)
          begins ends
        exact (Nat.even_add.mp longer).mpr even_two
    | cons first before =>
        exact even (character :: character :: first :: before) count after
          (congrArg (character :: character :: ·) split) begins ends
  · intro even before count after split begins ends
    match before, count with
    | [], 0 => exact Even.zero
    | [], 1 => exact absurd (congrArg List.head? (List.cons.inj split).2).symm ends
    | [], count + 2 =>
        have shorter := even [] count after (List.cons.inj (List.cons.inj split).2).2 nofun ends
        exact shorter.add even_two
    | [first], _ => exact absurd (congrArg some (List.cons.inj split).1).symm begins
    | [first, second], _ =>
        exact absurd (congrArg some (List.cons.inj (List.cons.inj split).2).1).symm begins
    | first :: second :: third :: before, count =>
        exact even (third :: before) count after (List.cons.inj (List.cons.inj split).2).2 begins
          ends

/-- A character whose runs are even does not stand alone. -/
theorem RunsEven.head_eq (even : RunsEven character (character :: text)) :
    text.head? = some character := by
  by_contra ends
  exact Nat.not_even_one (even [] 1 text rfl nofun ends)

/-! ## Carets, ampersands and bars -/

/-- The text has no caret, and ampersands and bars by twos. -/
def Twinned (text : List Char) : Prop :=
  '^' ∉ text ∧ ∀ character ∈ ['&', '|'], RunsEven character text

theorem twinned_nil : Twinned [] := ⟨List.not_mem_nil, fun character _ => runsEven_nil character⟩

theorem twinned_cons (plain : character ∉ ['^', '&', '|']) :
    Twinned (character :: text) ↔ Twinned text := by
  simp only [List.mem_cons, List.not_mem_nil, or_false, not_or] at plain
  obtain ⟨caret, ampersand, bar⟩ := plain
  simp [Twinned, runsEven_cons_of_ne ampersand, runsEven_cons_of_ne bar, Ne.symm caret]

theorem twinned_cons_cons (twin : character ∈ ['&', '|']) :
    Twinned (character :: character :: text) ↔ Twinned text := by
  simp only [List.mem_cons, List.not_mem_nil, or_false] at twin
  obtain rfl | rfl := twin <;>
    simp [Twinned, runsEven_cons_cons, runsEven_cons_of_ne]

/-- A symbol is one character of its own, or two ampersands or bars. -/
theorem forms_of_mem_symbols (listed : entry ∈ Vocabulary.symbols) :
    (∃ character ∉ ['^', '&', '|'], entry.1 = [character]) ∨
      ∃ character ∈ ['&', '|'], entry.1 = [character, character] := by
  have table : ∀ entry ∈ Vocabulary.symbols,
      (entry.1.length = 1 ∧ entry.1.all (· ∉ ['^', '&', '|']) = true) ∨
        (['&', '|'].any fun c => entry.1 = [c, c]) = true := by
    decide
  obtain ⟨length, plain⟩ | twin := table entry listed
  · obtain ⟨character, single⟩ := List.length_eq_one_iff.mp length
    rw [single] at plain
    exact .inl ⟨character, by simpa using plain, single⟩
  · exact .inr (by simpa using twin)

theorem SymbolRow.twinned (row : SymbolRow text) : Twinned text := by
  induction row with
  | nil => exact twinned_nil
  | cons listed _ ih =>
      obtain ⟨character, plain, spelled⟩ | ⟨character, twin, spelled⟩ := forms_of_mem_symbols listed
      · rw [spelled]
        exact (twinned_cons plain).mpr ih
      · rw [spelled]
        exact (twinned_cons_cons twin).mpr ih

theorem Twinned.symbolRow {text : List Char} (twinned : Twinned text)
    (parts : ∀ c ∈ text, isSymbolPart c = true) : SymbolRow text := by
  match text with
  | [] => exact .nil
  | character :: text =>
      obtain ⟨part, others⟩ := List.forall_mem_cons.mp parts
      by_cases plain : character ∈ ['^', '&', '|']
      · have twin : character ∈ ['&', '|'] := by
          refine (List.mem_cons.mp plain).resolve_left fun caret => ?_
          exact twinned.1 (caret ▸ List.mem_cons_self)
        -- The run that begins here is even, so the character stands here twice.
        obtain ⟨rest, rfl⟩ := List.head?_eq_some_iff.mp (twinned.2 character twin).head_eq
        have table : (['&', '|'].all fun c => (Vocabulary.symbols.kindOf? [c, c]).isSome) := by
          decide
        obtain ⟨kind, known⟩ :=
          Option.isSome_iff_exists.mp (List.all_eq_true.mp table character twin)
        exact .cons (kindOf?_symbols_eq_some_iff.mp known)
          (((twinned_cons_cons twin).mp twinned).symbolRow (List.forall_mem_cons.mp others).2)
      · obtain ⟨kind, known⟩ := (kindOf?_or_mem part).resolve_right plain
        exact .cons (kindOf?_symbols_eq_some_iff.mp known)
          (((twinned_cons plain).mp twinned).symbolRow others)
termination_by text.length

/-- Symbol characters are a row of symbols if and only if there is no caret among them and
ampersands and bars come by twos. -/
theorem symbolRow_iff (parts : ∀ c ∈ text, isSymbolPart c = true) :
    SymbolRow text ↔ Twinned text :=
  ⟨SymbolRow.twinned, fun twinned => twinned.symbolRow parts⟩

end Lexeme

open Lexeme

/-! ## Reading a symbol -/

namespace Cursor

variable {cursor : Cursor} {character : Char} {text : List Char}

/-- What is read of a symbol, and where that leaves the cursor. -/
def symbolRead (cursor : Cursor) (entry : List Char × TokenKind) :
    Except Diagnostic Token × Cursor :=
  let after : Cursor := ⟨cursor.rest.drop entry.1.length, cursor.place.past entry.1, cursor.file⟩
  (.ok ⟨entry.2, String.ofList entry.1, ⟨cursor.position, after.position⟩⟩, after)

/-- What comes of a cursor where a symbol is asked for and this character comes first.  Only two
characters are looked at: other text behind them changes nothing about the answer, nor about where
the cursor stands after it. -/
structure ReadsSymbol (cursor : Cursor) (character : Char) : Prop where
  longest : (∃ symbol ∈ Vocabulary.symbols, symbol.1 <+: cursor.rest) →
    ∃! entry, IsLongestSymbol cursor.rest entry
  token : ∀ entry, IsLongestSymbol cursor.rest entry → cursor.nextToken = cursor.symbolRead entry
  unknown : (∀ symbol ∈ Vocabulary.symbols, ¬ symbol.1 <+: cursor.rest) →
    cursor.nextToken =
      (.error ⟨.unknownSymbol (String.singleton character), cursor.position⟩, cursor)
  ahead : ∀ rest, rest.take 2 = cursor.rest.take 2 →
    (Cursor.mk rest cursor.place cursor.file).nextToken.1 = cursor.nextToken.1 ∧
      (Cursor.mk rest cursor.place cursor.file).nextToken.2.place = cursor.nextToken.2.place

theorem nextToken_of_isSymbolPart (starts : cursor.rest = character :: text)
    (part : isSymbolPart character = true)
    (operator : character = '%' → isPercentOperator text = true) :
    cursor.nextToken = (cursor.report (symbol cursor.rest), cursor.past (symbol cursor.rest)) := by
  rw [nextToken_of_visible starts (isSpace_of_isSymbolPart part),
    scan_of_isSymbolPart part operator, starts]

/-- A text with the same two characters in front is read as a symbol too. -/
theorem nextToken_of_take_two (starts : cursor.rest = character :: text)
    (part : isSymbolPart character = true)
    (operator : character = '%' → isPercentOperator text = true) {rest : List Char}
    (same : rest.take 2 = cursor.rest.take 2) :
    (Cursor.mk rest cursor.place cursor.file).nextToken =
      (cursor.report (symbol rest), cursor.past (symbol rest)) := by
  rw [starts] at same
  cases rest with
  | nil => cases same
  | cons first rest =>
      obtain ⟨rfl, second⟩ := List.cons.inj same
      have next : rest.head? = text.head? := by
        simpa [List.head?_take] using congrArg List.head? second
      have again : first = '%' → isPercentOperator rest = true := by
        rwa [isPercentOperator, next]
      exact nextToken_of_isSymbolPart rfl part again

theorem readsSymbol (starts : cursor.rest = character :: text)
    (part : isSymbolPart character = true)
    (operator : character = '%' → isPercentOperator text = true) :
    cursor.ReadsSymbol character := by
  have read := nextToken_of_isSymbolPart starts part operator
  refine ⟨fun begins => ?_, fun entry isLongest => ?_, fun unknown => ?_, fun rest same => ?_⟩
  · obtain ⟨entry, isLongest⟩ := exists_isLongestSymbol begins
    exact ⟨entry, isLongest, fun other again => again.unique isLongest⟩
  · rw [read, symbol_of_isLongestSymbol isLongest]
    rfl
  · rw [read, symbol_of_unknown unknown, starts]
    cases cursor
    subst starts
    rfl
  · obtain ⟨reading, taken⟩ := symbol_congr same
    rw [nextToken_of_take_two starts part operator same, read]
    simp [report, past, position, reading, taken]

/-! ## Texts of symbol characters -/

section Parts

variable {after : Cursor} (parts : ∀ c ∈ cursor.rest, isSymbolPart c = true)
include parts

theorem exists_readsSymbol (more : cursor.hasNext = true) :
    ∃ character, cursor.ReadsSymbol character := by
  cases rest : cursor.rest with
  | nil => simp [hasNext, rest] at more
  | cons character text =>
      rw [rest] at parts
      obtain ⟨part, others⟩ := List.forall_mem_cons.mp parts
      exact ⟨character, readsSymbol rest part fun _ => isPercentOperator_of_parts others⟩

theorem rest_eq_nil_of_parts (nothing : cursor.hasNext = false) : cursor.rest = [] := by
  refine List.eq_nil_iff_forall_not_mem.mpr fun c member => ?_
  have space := List.any_eq_false.mp nothing c member
  simp [isSpace_of_isSymbolPart (parts c member)] at space

/-- Among symbol characters a fault means that no symbol comes next. -/
theorem not_symbol_of_fault {diagnostic : Diagnostic} (more : cursor.hasNext = true)
    (read : cursor.nextToken = (.error diagnostic, after)) :
    ∀ symbol ∈ Vocabulary.symbols, ¬ symbol.1 <+: cursor.rest := by
  intro symbol listed front
  obtain ⟨character, reads⟩ := exists_readsSymbol parts more
  cases read.symm.trans (reads.token symbol (isLongestSymbol_iff.mpr ⟨listed, front⟩))

/-- Among symbol characters a token is a symbol off the front of the text. -/
theorem exists_symbol_of_token {token : Token} (read : cursor.nextToken = (.ok token, after)) :
    ∃ entry ∈ Vocabulary.symbols, cursor.rest = entry.1 ++ after.rest := by
  obtain ⟨character, reads⟩ := exists_readsSymbol parts (hasNext_of_nextToken read)
  have begins : ∃ symbol ∈ Vocabulary.symbols, symbol.1 <+: cursor.rest := by
    by_contra unknown
    have fault := reads.unknown fun symbol member front => unknown ⟨symbol, member, front⟩
    cases read.symm.trans fault
  obtain ⟨entry, isLongest⟩ := exists_isLongestSymbol begins
  refine ⟨entry, isLongest.listed, ?_⟩
  cases read.symm.trans (reads.token entry isLongest)
  exact (List.prefix_iff_eq_append.mp isLongest.begins).symm

end Parts

/-- A text of symbol characters is read to its end exactly if it is symbols in a row. -/
theorem ends_iff_symbolRow (cursor : Cursor) (parts : ∀ c ∈ cursor.rest, isSymbolPart c = true) :
    (∃ final, cursor.stream.ending = .ok final) ↔ SymbolRow cursor.rest := by
  induction cursor using stream_induction with
  | ended cursor nothing =>
      rw [stream_of_end nothing, rest_eq_nil_of_parts parts nothing]
      exact ⟨fun _ => .nil, fun _ => ⟨_, rfl⟩⟩
  | fault cursor after diagnostic more read =>
      have unknown := not_symbol_of_fault parts more read
      rw [stream_of_fault more read]
      constructor
      · rintro ⟨final, ⟨⟩⟩
      · intro row
        generalize rest : cursor.rest = text at row unknown
        cases row with
        | nil => simp [hasNext, rest] at more
        | cons listed => exact absurd (List.prefix_append _ _) (unknown _ listed)
  | token cursor after token more read ih =>
      obtain ⟨entry, listed, split⟩ := exists_symbol_of_token parts read
      rw [stream_of_token more read, split, symbolRow_append_iff listed]
      exact ih fun c member => parts c (split ▸ List.mem_append_right _ member)

end Cursor

/-- Symbols are read by longest match, from two characters.  A text of symbol characters can
therefore be cut into tokens if and only if there is no caret in it and its maximal runs of
ampersands and of bars all have even length. -/
theorem symbols_longestMatch :
    (∀ (cursor : Cursor) (character : Char) (text : List Char),
      cursor.rest = character :: text → isSymbolPart character = true →
      (character = '%' → isPercentOperator text = true) → cursor.ReadsSymbol character) ∧
    ∀ (source : String) (file : Option String), (∀ c ∈ source.toList, isSymbolPart c = true) →
      ((∃ tokens, tokenize source file = .ok tokens) ↔
        '^' ∉ source.toList ∧ ∀ character ∈ ['&', '|'], RunsEven character source.toList) := by
  refine ⟨fun cursor character text => Cursor.readsSymbol, fun source file parts => ?_⟩
  have row := Cursor.ends_iff_symbolRow (Cursor.ofSource source file) parts
  refine Iff.trans ?_ (row.trans (symbolRow_iff parts))
  rw [tokenize, Cursor.drain_eq_items, TokenStream.gather_items]
  cases (Cursor.ofSource source file).stream.ending <;> simp [Except.map]

/-- A percent sign in a run that is given back as far as the sign, an ampersand that has no second
one, and texts with an even and with an odd run of ampersands. -/
theorem symbols_longestMatch_shrinks :
    (Cursor.mk ['%', '&', '&', '=', '1'] .start Cursor.unnamed).nextToken =
        (.ok ⟨.percent, "%", ⟨⟨0, 1, 1, "shell"⟩, ⟨1, 1, 2, "shell"⟩⟩⟩,
          ⟨['&', '&', '=', '1'], ⟨1, 1, 2⟩, "shell"⟩) ∧
      (Cursor.mk ['%', '&'] .start Cursor.unnamed).nextToken.1 =
        .ok ⟨.percent, "%", ⟨⟨0, 1, 1, "shell"⟩, ⟨1, 1, 2, "shell"⟩⟩⟩ ∧
      (Cursor.mk ['&', ';', '&'] .start Cursor.unnamed).nextToken =
        (.error ⟨.unknownSymbol "&", ⟨0, 1, 1, "shell"⟩⟩,
          ⟨['&', ';', '&'], .start, Cursor.unnamed⟩) ∧
      (∃ tokens, tokenize "%&&&&!" none = .ok tokens) ∧
      ¬ ∃ tokens, tokenize "(&&&)" none = .ok tokens := by
  obtain ⟨reads, rows⟩ := symbols_longestMatch
  have percent := reads ⟨['%', '&', '&', '=', '1'], .start, Cursor.unnamed⟩ _ _ rfl (by decide)
    (by decide)
  have ampersand := reads ⟨['&', ';', '&'], .start, Cursor.unnamed⟩ _ _ rfl (by decide) (by decide)
  have shrunk := percent.token (['%'], .percent)
    (isLongestSymbol_iff.mpr ⟨by decide, _, rfl⟩)
  refine ⟨shrunk, ?_, ampersand.unknown (by decide), ?_, ?_⟩
  · rw [(percent.ahead ['%', '&'] rfl).1, shrunk]
    rfl
  · have twinned : Twinned ['%', '&', '&', '&', '&', '!'] := by
      rw [twinned_cons (by decide), twinned_cons_cons (by decide), twinned_cons_cons (by decide),
        twinned_cons (by decide)]
      exact twinned_nil
    exact (rows "%&&&&!" none (List.all_eq_true.mp (by decide))).mpr twinned
  · intro lexed
    have even := ((rows "(&&&)" none (List.all_eq_true.mp (by decide))).mp lexed).2
    exact absurd (even '&' (by decide) ['('] 3 [')'] rfl (by decide) (by decide)) (by decide)

end Scriptlet
