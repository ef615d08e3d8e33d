import Scriptlet.Lexeme.Basic

/-!
# The longest symbol

A run of symbol characters is taken whole and given back from its end until a symbol is left.  What
is left is the longest symbol of the vocabulary that stands at the front of the text, whatever the
run is (`giveBack_longest`).  How long the run is does not matter, because no symbol has more than
two characters (`prefix_iff_prefix_take`).

The vocabulary has no two symbols of which one begins with the other, so that a symbol at the front
of a text is the longest one there (`isLongestSymbol_iff`).
-/

namespace Scriptlet.Lexeme

/-! ## The vocabulary -/

/-- Looking up a spelling backwards is looking it up. -/
theorem kindOf?_symbolsBackwards (reversed : List Char) :
    symbolsBackwards.kindOf? reversed = Vocabulary.symbols.kindOf? reversed.reverse := by
  have general : ∀ vocabulary : Vocabulary,
      (vocabulary.map fun entry => (entry.1.reverse, entry.2)).lookup reversed =
        vocabulary.lookup reversed.reverse := by
    intro vocabulary
    induction vocabulary with
    | nil => rfl
    | cons entry vocabulary ih =>
        have same : (reversed == entry.1.reverse) = (reversed.reverse == entry.1) := by
          rw [Bool.eq_iff_iff, beq_iff_eq, beq_iff_eq, List.reverse_eq_iff]
        rw [List.map_cons, List.lookup_cons, List.lookup_cons, same, ih]
  exact general _

/-- A symbol has the kind that it is listed with, and is listed once. -/
theorem kindOf?_symbols_eq_some_iff {spelling : List Char} {kind : TokenKind} :
    Vocabulary.symbols.kindOf? spelling = some kind ↔ (spelling, kind) ∈ Vocabulary.symbols := by
  constructor
  · intro found
    obtain ⟨before, after, split, _⟩ := List.lookup_eq_some_iff.mp found
    rw [split]
    simp
  · have table : ∀ entry ∈ Vocabulary.symbols,
        Vocabulary.symbols.kindOf? entry.1 = some entry.2 := by
      decide
    exact table (spelling, kind)

/-- No symbol begins with another one. -/
theorem symbols_prefixFree {one other : List Char × TokenKind} (listed : one ∈ Vocabulary.symbols)
    (listedToo : other ∈ Vocabulary.symbols) (front : one.1 <+: other.1) : one.1 = other.1 := by
  have table : ∀ one ∈ Vocabulary.symbols, ∀ other ∈ Vocabulary.symbols,
      one.1.isPrefixOf other.1 = true → one.1 = other.1 := by
    decide
  exact table one listed other listedToo (List.isPrefixOf_iff_prefix.mpr front)

theorem ne_nil_of_mem_symbols : ∀ symbol ∈ Vocabulary.symbols, symbol.1 ≠ [] := by decide

/-- What the seventeen symbol characters have in common, every symbol character has. -/
theorem of_isSymbolPart (property : Char → Bool) {character : Char}
    (table : "+-*/^;&|\x7b\x7d[]()=!%".toList.all property = true)
    (part : isSymbolPart character = true) : property character = true :=
  List.all_eq_true.mp table character (List.contains_iff_mem.mp part)

/-- Only three of the characters that symbols are made of are no symbols. -/
theorem kindOf?_or_mem {character : Char} (part : isSymbolPart character = true) :
    (∃ kind, Vocabulary.symbols.kindOf? [character] = some kind) ∨ character ∈ ['^', '&', '|'] := by
  have entry := of_isSymbolPart
    (fun c => (Vocabulary.symbols.kindOf? [c]).isSome || ['^', '&', '|'].contains c)
    (by decide) part
  obtain known | other := Bool.or_eq_true_iff.mp entry
  · exact .inl (Option.isSome_iff_exists.mp known)
  · exact .inr (List.contains_iff_mem.mp other)

/-! ## The longest symbol at the front of a text -/

/-- The longest of the symbols that stand at the front of a text, with its kind. -/
structure IsLongestSymbol (text : List Char) (entry : List Char × TokenKind) : Prop where
  listed : entry ∈ Vocabulary.symbols
  begins : entry.1 <+: text
  longest : ∀ other ∈ Vocabulary.symbols, other.1 <+: text → other.1.length ≤ entry.1.length

variable {text other : List Char} {entry : List Char × TokenKind}

theorem IsLongestSymbol.unique {later : List Char × TokenKind}
    (isLongest : IsLongestSymbol text entry) (again : IsLongestSymbol text later) :
    entry = later := by
  have length : entry.1.length = later.1.length :=
    Nat.le_antisymm (again.longest entry isLongest.listed isLongest.begins)
      (isLongest.longest later again.listed again.begins)
  have spelling : entry.1 = later.1 :=
    (List.prefix_of_prefix_length_le isLongest.begins again.begins
      (Nat.le_of_eq length)).eq_of_length length
  have kind := kindOf?_symbols_eq_some_iff.mpr isLongest.listed
  rw [spelling, kindOf?_symbols_eq_some_iff.mpr again.listed] at kind
  exact Prod.ext spelling (Option.some.inj kind).symm

/-- Texts that begin with the same symbols have the same longest one. -/
theorem isLongestSymbol_congr
    (same : ∀ symbol ∈ Vocabulary.symbols, symbol.1 <+: text ↔ symbol.1 <+: other) :
    IsLongestSymbol text entry ↔ IsLongestSymbol other entry := by
  constructor
  · rintro ⟨listed, begins, longest⟩
    refine ⟨listed, (same entry listed).mp begins, fun later member front => ?_⟩
    exact longest later member ((same later member).mpr front)
  · rintro ⟨listed, begins, longest⟩
    refine ⟨listed, (same entry listed).mpr begins, fun later member front => ?_⟩
    exact longest later member ((same later member).mp front)

/-- Giving back from the end of a run comes to the longest symbol that the run begins with, and to
nothing only if the run begins with none. -/
theorem giveBack_longest (reversed : List Char) :
    match giveBack reversed with
    | some entry => IsLongestSymbol reversed.reverse entry
    | none => ∀ symbol ∈ Vocabulary.symbols, ¬ symbol.1 <+: reversed.reverse := by
  induction reversed with
  | nil =>
      intro symbol member front
      exact ne_nil_of_mem_symbols symbol member (List.prefix_nil.mp front)
  | cons last earlier ih =>
      rw [giveBack, kindOf?_symbolsBackwards]
      cases known : Vocabulary.symbols.kindOf? (last :: earlier).reverse with
      | some kind =>
          exact ⟨kindOf?_symbols_eq_some_iff.mp known, List.prefix_refl _,
            fun _ _ front => front.length_le⟩
      | none =>
          -- The whole run is no symbol, so its symbols stand in front of its last character.
          have same : ∀ symbol ∈ Vocabulary.symbols,
              symbol.1 <+: earlier.reverse ↔ symbol.1 <+: (last :: earlier).reverse := by
            intro symbol member
            rw [List.reverse_cons, List.prefix_concat_iff, ← List.reverse_cons]
            refine ⟨.inr, Or.rec (fun whole => ?_) id⟩
            have found := kindOf?_symbols_eq_some_iff.mpr member
            rw [whole, known] at found
            cases found
          dsimp only
          cases left : giveBack earlier with
          | some entry =>
              rw [left] at ih
              exact (isLongestSymbol_congr same).mp ih
          | none =>
              rw [left] at ih
              exact fun symbol member front => ih symbol member ((same symbol member).mpr front)

/-- A text that begins with symbols begins with a longest one. -/
theorem exists_isLongestSymbol (begins : ∃ symbol ∈ Vocabulary.symbols, symbol.1 <+: text) :
    ∃ entry, IsLongestSymbol text entry := by
  have longest := giveBack_longest text.reverse
  rw [List.reverse_reverse] at longest
  obtain ⟨symbol, member, front⟩ := begins
  split at longest
  next entry _ => exact ⟨entry, longest⟩
  next => exact absurd front (longest symbol member)

/-- Giving back from the end of a run leaves the longest symbol that the run begins with. -/
theorem giveBack_eq_some_iff_isLongest {reversed : List Char} :
    giveBack reversed = some entry ↔ IsLongestSymbol reversed.reverse entry := by
  have longest := giveBack_longest reversed
  split at longest
  next left found =>
    rw [found, Option.some.injEq]
    exact ⟨fun same => same ▸ longest, longest.unique⟩
  next nothing =>
    rw [nothing]
    exact ⟨nofun, fun isLongest => absurd isLongest.begins (longest entry isLongest.listed)⟩

/-- A symbol at the front of a text is the longest one there. -/
theorem isLongestSymbol_iff :
    IsLongestSymbol text entry ↔ entry ∈ Vocabulary.symbols ∧ entry.1 <+: text := by
  refine ⟨fun isLongest => ⟨isLongest.listed, isLongest.begins⟩, ?_⟩
  rintro ⟨listed, begins⟩
  refine ⟨listed, begins, fun later member front => Nat.le_of_not_lt fun shorter => ?_⟩
  have inside := List.prefix_of_prefix_length_le begins front (Nat.le_of_lt shorter)
  have same := symbols_prefixFree listed member inside
  exact absurd shorter (same ▸ Nat.lt_irrefl _)

theorem giveBack_eq_some_iff {reversed spelling : List Char} {kind : TokenKind} :
    giveBack reversed = some (spelling, kind) ↔
      spelling <+: reversed.reverse ∧ Vocabulary.symbols.kindOf? spelling = some kind := by
  rw [giveBack_eq_some_iff_isLongest, isLongestSymbol_iff, kindOf?_symbols_eq_some_iff, and_comm]

/-! ## Reading a symbol -/

/-- A symbol stands at the front of a text exactly if it stands at the front of the run there. -/
theorem prefix_iff_prefix_takeWhile :
    ∀ symbol ∈ Vocabulary.symbols,
      symbol.1 <+: text.takeWhile isSymbolPart ↔ symbol.1 <+: text := by
  intro symbol member
  constructor
  · exact fun front => front.trans (List.takeWhile_prefix isSymbolPart)
  · rintro ⟨more, rfl⟩
    have table : ∀ symbol ∈ Vocabulary.symbols, symbol.1.all isSymbolPart = true := by decide
    rw [List.takeWhile_append_of_pos (List.all_eq_true.mp (table symbol member))]
    exact List.prefix_append _ _

/-- Two characters show which symbols a text begins with. -/
theorem prefix_iff_prefix_take :
    ∀ symbol ∈ Vocabulary.symbols, symbol.1 <+: text.take 2 ↔ symbol.1 <+: text := by
  intro symbol member
  have table : ∀ symbol ∈ Vocabulary.symbols, symbol.1.length ≤ 2 := by decide
  rw [List.prefix_take_iff]
  exact and_iff_left (table symbol member)

/-- Giving back from the end of the run at the front of a text leaves the longest symbol there. -/
theorem giveBack_run_eq_some_iff :
    giveBack (text.takeWhile isSymbolPart).reverse = some entry ↔ IsLongestSymbol text entry := by
  rw [giveBack_eq_some_iff_isLongest, List.reverse_reverse]
  exact isLongestSymbol_congr prefix_iff_prefix_takeWhile

theorem symbol_of_isLongestSymbol (isLongest : IsLongestSymbol text entry) :
    symbol text = .verbatim entry.2 entry.1 (text.drop entry.1.length) := by
  rw [symbol, giveBack_run_eq_some_iff.mpr isLongest]

/-- Only the longest symbol at the front of a text is read as a symbol. -/
theorem isLongestSymbol_of_reading {kind : TokenKind} {value : List Char}
    (reading : (symbol text).reading = .token kind value) : IsLongestSymbol text (value, kind) := by
  unfold symbol at reading
  split at reading
  next spelling found left =>
    cases reading
    exact giveBack_run_eq_some_iff.mp left
  next => cases reading

theorem symbol_of_unknown (unknown : ∀ symbol ∈ Vocabulary.symbols, ¬ symbol.1 <+: text) :
    symbol text = .faulty (.unknownSymbol (String.ofList (text.take 1))) [] text := by
  have nothing : giveBack (text.takeWhile isSymbolPart).reverse = none := by
    refine Option.eq_none_iff_forall_ne_some.mpr fun entry left => ?_
    have isLongest := giveBack_run_eq_some_iff.mp left
    exact unknown entry isLongest.listed isLongest.begins
  rw [symbol, nothing]

/-- What is read as a symbol, and what is taken for it, shows in the first two characters. -/
theorem symbol_congr (same : text.take 2 = other.take 2) :
    (symbol text).reading = (symbol other).reading ∧
      (symbol text).taken = (symbol other).taken := by
  have fronts : ∀ symbol ∈ Vocabulary.symbols, symbol.1 <+: text ↔ symbol.1 <+: other := by
    intro symbol member
    rw [← prefix_iff_prefix_take symbol member, same, prefix_iff_prefix_take symbol member]
  by_cases begins : ∃ symbol ∈ Vocabulary.symbols, symbol.1 <+: text
  · obtain ⟨entry, isLongest⟩ := exists_isLongestSymbol begins
    rw [symbol_of_isLongestSymbol isLongest,
      symbol_of_isLongestSymbol ((isLongestSymbol_congr fronts).mp isLongest)]
    exact ⟨rfl, rfl⟩
  · have unknown : ∀ symbol ∈ Vocabulary.symbols, ¬ symbol.1 <+: text :=
      fun symbol member front => begins ⟨symbol, member, front⟩
    have first : text.take 1 = other.take 1 := by
      simpa [List.take_take] using congrArg (List.take 1) same
    rw [symbol_of_unknown unknown, symbol_of_unknown fun symbol member front =>
      unknown symbol member ((fronts symbol member).mpr front), first]
    exact ⟨rfl, rfl⟩

end Scriptlet.Lexeme
