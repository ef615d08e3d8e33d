import Mathlib.Computability.Language
import Scriptlet.Proofs.Lexing.Slice

/-!
# The language of numbers

The numbers are two languages, the integers and the floats, given as regular expressions.  Reading a
number is reading the longest text that some number begins with: if that text is itself a number, it
is the token, and otherwise it is the fault (`Cursor.nextToken_number`).

The states of a number are compared with these languages through their residuals: what still makes
an integer of the characters read, and what still makes a float of them.  A step of the state is a
step of its residuals (`State.cons_mem_integersFrom`, `State.cons_mem_floatsFrom`), and no state is
a dead end (`State.exists_completion`), so that a number is read on for exactly as long as it can
still become one.
-/

namespace Scriptlet

namespace Lexeme

namespace Number

open scoped Computability

/-! ## Regular expressions -/

/-- One character of a class. -/
def one (accepted : Char → Bool) : Language Char :=
  {word | ∃ character, accepted character = true ∧ word = [character]}

/-- One of the characters listed. -/
def oneOf (characters : List Char) : Language Char := one characters.contains

/-- Any number of characters of a class. -/
def many (accepted : Char → Bool) : Language Char := (one accepted)∗

/-- Characters of a class, at least one of them. -/
def several (accepted : Char → Bool) : Language Char := one accepted * many accepted

/-- A word of the language, or nothing. -/
def possibly (language : Language Char) : Language Char := 1 + language

variable {accepted : Char → Bool} {characters : List Char} {first language : Language Char}
  {character : Char} {text : List Char}

theorem nil_mem_one_mul : [] ∈ one accepted * language ↔ False := by
  refine iff_of_false ?_ id
  rintro ⟨front, ⟨character, _, rfl⟩, back, _, impossible⟩
  cases impossible

theorem cons_mem_one_mul :
    character :: text ∈ one accepted * language ↔
      accepted character = true ∧ text ∈ language := by
  constructor
  · rintro ⟨front, ⟨other, holds, rfl⟩, back, follows, same⟩
    cases same
    exact ⟨holds, follows⟩
  · rintro ⟨holds, follows⟩
    exact ⟨[character], ⟨character, holds, rfl⟩, text, follows, rfl⟩

theorem nil_mem_oneOf_mul : [] ∈ oneOf characters * language ↔ False := nil_mem_one_mul

theorem cons_mem_oneOf_mul :
    character :: text ∈ oneOf characters * language ↔
      character ∈ characters ∧ text ∈ language := by
  rw [oneOf, cons_mem_one_mul, List.contains_iff_mem]

theorem nil_mem_oneOf : [] ∈ oneOf characters ↔ False := by
  rw [← mul_one (oneOf characters), nil_mem_oneOf_mul]

theorem cons_mem_oneOf :
    character :: text ∈ oneOf characters ↔ character ∈ characters ∧ text = [] := by
  rw [← mul_one (oneOf characters), cons_mem_oneOf_mul, Language.mem_one]

theorem many_mul :
    many accepted * language = language + one accepted * (many accepted * language) := by
  unfold many
  rw [← mul_assoc]
  nth_rewrite 1 [← Language.one_add_self_mul_kstar_eq_kstar]
  rw [add_mul, one_mul]

theorem nil_mem_many_mul : [] ∈ many accepted * language ↔ [] ∈ language := by
  rw [many_mul, Language.mem_add, nil_mem_one_mul, or_false]

theorem cons_mem_many_mul :
    character :: text ∈ many accepted * language ↔
      character :: text ∈ language ∨
        accepted character = true ∧ text ∈ many accepted * language := by
  rw [many_mul, Language.mem_add, cons_mem_one_mul, ← many_mul]

theorem nil_mem_several_mul : [] ∈ several accepted * language ↔ False := by
  rw [several, mul_assoc, nil_mem_one_mul]

theorem cons_mem_several_mul :
    character :: text ∈ several accepted * language ↔
      accepted character = true ∧ text ∈ many accepted * language := by
  rw [several, mul_assoc, cons_mem_one_mul]

theorem mem_possibly : text ∈ possibly language ↔ text = [] ∨ text ∈ language := by
  rw [possibly, Language.mem_add, Language.mem_one]

theorem mem_possibly_mul :
    text ∈ possibly first * language ↔ text ∈ language ∨ text ∈ first * language := by
  rw [possibly, add_mul, one_mul, Language.mem_add]

/-! ## Integers and floats

In the comments `D`, `O` and `H` are decimal, octal and hexadecimal digits. -/

/-- `[+-]?D+` -/
def power : Language Char := possibly (oneOf ['+', '-']) * several Char.isDigit

/-- `[eE][+-]?D+` -/
def decimalExponent : Language Char := oneOf ['e', 'E'] * power

/-- `[pP][+-]?D+` -/
def hexExponent : Language Char := oneOf ['p', 'P'] * power

/-- `[fFlL]` -/
def floatSuffix : Language Char := oneOf ['f', 'F', 'l', 'L']

/-- `l|L|ll|LL` -/
def longSuffix : Language Char :=
  oneOf ['l'] + oneOf ['L'] + oneOf ['l'] * oneOf ['l'] + oneOf ['L'] * oneOf ['L']

/-- `[uU](l|L|ll|LL)?` and `(l|L|ll|LL)[uU]?` -/
def integerSuffix : Language Char :=
  oneOf ['u', 'U'] * possibly longSuffix + longSuffix * possibly (oneOf ['u', 'U'])

/-- `0[xX]` -/
def hexSign : Language Char := oneOf ['0'] * oneOf ['x', 'X']

/-- `0[bB]` -/
def binarySign : Language Char := oneOf ['0'] * oneOf ['b', 'B']

/-- The integers: `D+`, `0[xX]H+` and `0[bB][01]+`, each with a suffix or without. -/
def integers : Language Char :=
  several Char.isDigit * possibly integerSuffix +
  hexSign * several isHexDigit * possibly integerSuffix +
  binarySign * several isBinaryDigit * possibly integerSuffix

/-- The floats.  A decimal float has digits on one side of its point, or digits and an exponent, or
it is a number like `09f`, which nothing but its suffix makes a float.  A hexadecimal float has an
exponent in any case. -/
def floats : Language Char :=
  oneOf ['.'] * several Char.isDigit * possibly decimalExponent * possibly floatSuffix +
  several Char.isDigit * decimalExponent * possibly floatSuffix +
  several Char.isDigit * oneOf ['.'] * many Char.isDigit * possibly decimalExponent *
    possibly floatSuffix +
  oneOf ['0'] * many isOctalDigit * oneOf ['8', '9'] * many Char.isDigit * oneOf ['f', 'F'] +
  hexSign * several isHexDigit * hexExponent * possibly floatSuffix +
  hexSign * several isHexDigit * oneOf ['.'] * many isHexDigit * hexExponent *
    possibly floatSuffix +
  hexSign * oneOf ['.'] * several isHexDigit * hexExponent * possibly floatSuffix

/-! ## Residuals -/

namespace State

/-- What makes a float of decimal digits, whatever these are. -/
def decimalTail : Language Char :=
  many Char.isDigit * decimalExponent * possibly floatSuffix +
  many Char.isDigit * oneOf ['.'] * many Char.isDigit * possibly decimalExponent *
    possibly floatSuffix

/-- What makes an integer of the characters read. -/
def integersFrom : State → Language Char
  | .nothing => integers
  | .zero =>
      many Char.isDigit * possibly integerSuffix +
      oneOf ['x', 'X'] * several isHexDigit * possibly integerSuffix +
      oneOf ['b', 'B'] * several isBinaryDigit * possibly integerSuffix
  | .octal | .promoted | .decimal => many Char.isDigit * possibly integerSuffix
  | .hexMark => several isHexDigit * possibly integerSuffix
  | .hex => many isHexDigit * possibly integerSuffix
  | .binaryMark => several isBinaryDigit * possibly integerSuffix
  | .binary => many isBinaryDigit * possibly integerSuffix
  | .unsigned => possibly longSuffix
  | .unsignedLong letter => possibly (oneOf [letter])
  | .long letter => possibly (oneOf [letter]) * possibly (oneOf ['u', 'U'])
  | .longLong => possibly (oneOf ['u', 'U'])
  | .integer => 1
  | .point | .fraction | .exponentMark | .exponentSign | .exponent | .float | .hexPoint
  | .hexFraction => 0

/-- What makes a float of the characters read. -/
def floatsFrom : State → Language Char
  | .nothing => floats
  | .point => several Char.isDigit * possibly decimalExponent * possibly floatSuffix
  | .fraction => many Char.isDigit * possibly decimalExponent * possibly floatSuffix
  | .exponentMark => power * possibly floatSuffix
  | .exponentSign => several Char.isDigit * possibly floatSuffix
  | .exponent => many Char.isDigit * possibly floatSuffix
  | .float => 1
  | .zero =>
      decimalTail +
      many isOctalDigit * oneOf ['8', '9'] * many Char.isDigit * oneOf ['f', 'F'] +
      oneOf ['x', 'X'] * several isHexDigit * hexExponent * possibly floatSuffix +
      oneOf ['x', 'X'] * several isHexDigit * oneOf ['.'] * many isHexDigit * hexExponent *
        possibly floatSuffix +
      oneOf ['x', 'X'] * oneOf ['.'] * several isHexDigit * hexExponent * possibly floatSuffix
  | .octal =>
      decimalTail + many isOctalDigit * oneOf ['8', '9'] * many Char.isDigit * oneOf ['f', 'F']
  | .promoted => decimalTail + many Char.isDigit * oneOf ['f', 'F']
  | .decimal => decimalTail
  | .hexMark =>
      several isHexDigit * hexExponent * possibly floatSuffix +
      several isHexDigit * oneOf ['.'] * many isHexDigit * hexExponent * possibly floatSuffix +
      oneOf ['.'] * several isHexDigit * hexExponent * possibly floatSuffix
  | .hexPoint => several isHexDigit * hexExponent * possibly floatSuffix
  | .hexFraction => many isHexDigit * hexExponent * possibly floatSuffix
  | .hex =>
      many isHexDigit * hexExponent * possibly floatSuffix +
      many isHexDigit * oneOf ['.'] * many isHexDigit * hexExponent * possibly floatSuffix
  | .binaryMark | .binary | .unsigned | .unsignedLong _ | .long _ | .longLong | .integer => 0

variable {state : State}

/-- A state is an integer exactly if nothing has to follow to make it one. -/
theorem nil_mem_integersFrom :
    [] ∈ state.integersFrom ↔ state.verdict = .ok .integerLiteral := by
  cases state <;>
    simp only [integersFrom, integers, hexSign, binarySign, integerSuffix, longSuffix, verdict,
      Language.mem_add, Language.mem_one, Language.notMem_zero, add_mul, mul_assoc,
      nil_mem_oneOf, nil_mem_oneOf_mul, nil_mem_many_mul, nil_mem_several_mul, mem_possibly,
      mem_possibly_mul] <;>
    simp

/-- A state is a float exactly if nothing has to follow to make it one. -/
theorem nil_mem_floatsFrom : [] ∈ state.floatsFrom ↔ state.verdict = .ok .floatLiteral := by
  cases state <;>
    simp only [floatsFrom, floats, decimalTail, hexSign, decimalExponent, hexExponent, power,
      floatSuffix, verdict, Language.mem_add, Language.mem_one, Language.notMem_zero, mul_assoc,
      nil_mem_oneOf, nil_mem_oneOf_mul, nil_mem_many_mul, nil_mem_several_mul, mem_possibly,
      mem_possibly_mul] <;>
    simp

end State

/-! The classes of characters overlap, and are compared by their codes. -/

theorem isDigit_iff :
    character.isDigit = true ↔ 48 ≤ character.toNat ∧ character.toNat ≤ 57 := by
  rw [Char.isDigit, Bool.and_eq_true, decide_eq_true_iff, decide_eq_true_iff]
  exact Iff.rfl

theorem isOctalDigit_iff :
    isOctalDigit character = true ↔ 48 ≤ character.toNat ∧ character.toNat ≤ 55 := by
  rw [isOctalDigit, Bool.and_eq_true, decide_eq_true_iff, decide_eq_true_iff]
  exact Iff.rfl

theorem isHexDigit_iff :
    isHexDigit character = true ↔
      (48 ≤ character.toNat ∧ character.toNat ≤ 57 ∨
        97 ≤ character.toNat ∧ character.toNat ≤ 102) ∨
        65 ≤ character.toNat ∧ character.toNat ≤ 70 := by
  simp only [isHexDigit, Bool.or_eq_true, Bool.and_eq_true, decide_eq_true_iff, isDigit_iff]
  exact Iff.rfl

theorem isBinaryDigit_iff :
    isBinaryDigit character = true ↔ 48 ≤ character.toNat ∧ character.toNat ≤ 49 := by
  simp only [isBinaryDigit, Bool.or_eq_true, beq_iff_eq, ← Char.toNat_inj, Char.reduceToNat]
  omega

namespace State

variable {state : State}

/-- A doubled letter is of one case, so that the letter has to be remembered. -/
theorem cons_mem_longSuffix :
    character :: text ∈ longSuffix ↔
      character ∈ ['l', 'L'] ∧ text ∈ (unsignedLong character).integersFrom := by
  simp only [integersFrom, longSuffix, Language.mem_add, cons_mem_oneOf, cons_mem_oneOf_mul,
    mem_possibly, List.mem_cons, List.not_mem_nil]
  grind

theorem cons_mem_integerSuffix :
    character :: text ∈ integerSuffix ↔
      character ∈ ['u', 'U'] ∧ text ∈ unsigned.integersFrom ∨
        character ∈ ['l', 'L'] ∧ text ∈ (long character).integersFrom := by
  simp only [integersFrom, integerSuffix, longSuffix, add_mul, mul_assoc, Language.mem_add,
    cons_mem_oneOf_mul, mem_possibly_mul, List.mem_cons, List.not_mem_nil]
  grind

theorem mem_elim_ite {words : State → Language Char} {condition : Prop} [Decidable condition]
    {next other : Option State} :
    text ∈ (if condition then next else other).elim 0 words ↔
      if condition then text ∈ next.elim 0 words else text ∈ other.elim 0 words := by
  split <;> rfl

/-- The suffix of an integer begins as `suffix?` says. -/
theorem mem_suffix?_integers :
    text ∈ (suffix? character).elim 0 integersFrom ↔ character :: text ∈ integerSuffix := by
  simp only [suffix?, isUnsignedMark, isLongMark, Bool.or_eq_true, beq_iff_eq, mem_elim_ite,
    Option.elim_some, Option.elim_none, Language.notMem_zero, cons_mem_integerSuffix,
    List.mem_cons, List.not_mem_nil]
  grind

/-- Behind decimal digits only a suffix leads to an integer. -/
theorem mem_afterDigits?_integers :
    text ∈ (afterDigits? character).elim 0 integersFrom ↔ character :: text ∈ integerSuffix := by
  simp only [afterDigits?, isExponentMark, Bool.or_eq_true, beq_iff_eq, mem_elim_ite,
    Option.elim_some, mem_suffix?_integers, cons_mem_integerSuffix, List.mem_cons,
    List.not_mem_nil, integersFrom, Language.notMem_zero]
  grind

theorem mem_suffix?_floats : text ∈ (suffix? character).elim 0 floatsFrom ↔ False := by
  simp only [suffix?, mem_elim_ite, Option.elim_some, Option.elim_none, floatsFrom,
    Language.notMem_zero, ite_self]

/-- Behind decimal digits a point or an exponent leads to a float. -/
theorem mem_afterDigits?_floats :
    text ∈ (afterDigits? character).elim 0 floatsFrom ↔
      character = '.' ∧ text ∈ fraction.floatsFrom ∨
        character ∈ ['e', 'E'] ∧ text ∈ exponentMark.floatsFrom := by
  simp only [afterDigits?, isExponentMark, Bool.or_eq_true, beq_iff_eq, mem_elim_ite,
    Option.elim_some, mem_suffix?_floats, List.mem_cons, List.not_mem_nil]
  grind

/-- An integer goes on with a character exactly if the state has a step for it, and then as the next
state says. -/
theorem cons_mem_integersFrom :
    character :: text ∈ state.integersFrom ↔
      text ∈ (state.step character).elim 0 integersFrom := by
  -- Once each side is a combination of tests on the character, only the order of these differs.
  cases state <;>
    simp only [step, isUnsignedMark, isLongMark, isFloatMark, isExponentMark, isHexExponentMark,
      Bool.or_eq_true, beq_iff_eq, mem_elim_ite, mem_suffix?_integers, mem_afterDigits?_integers,
      Option.elim_some, Option.elim_none, integersFrom, integers, hexSign, binarySign,
      Language.mem_add, Language.mem_one, Language.notMem_zero, mul_assoc, cons_mem_oneOf,
      cons_mem_oneOf_mul, cons_mem_many_mul, cons_mem_several_mul, mem_possibly,
      mem_possibly_mul, cons_mem_integerSuffix, cons_mem_longSuffix, List.mem_cons,
      List.not_mem_nil, ← Char.toNat_inj, Char.reduceToNat, isDigit_iff, isOctalDigit_iff,
      isHexDigit_iff, isBinaryDigit_iff] <;>
    grind

/-- A float goes on with a character exactly if the state has a step for it, and then as the next
state says. -/
theorem cons_mem_floatsFrom :
    character :: text ∈ state.floatsFrom ↔
      text ∈ (state.step character).elim 0 floatsFrom := by
  cases state <;>
    simp only [step, isUnsignedMark, isLongMark, isFloatMark, isExponentMark, isHexExponentMark,
      Bool.or_eq_true, beq_iff_eq, mem_elim_ite, mem_suffix?_floats, mem_afterDigits?_floats,
      Option.elim_some, Option.elim_none, floatsFrom, floats, hexSign, decimalTail,
      decimalExponent, hexExponent, power, floatSuffix, Language.mem_add, Language.mem_one,
      Language.notMem_zero, mul_assoc, cons_mem_oneOf, cons_mem_oneOf_mul, cons_mem_many_mul,
      cons_mem_several_mul, mem_possibly, mem_possibly_mul, List.mem_cons, List.not_mem_nil,
      ← Char.toNat_inj, Char.reduceToNat, isDigit_iff, isOctalDigit_iff, isHexDigit_iff,
      isBinaryDigit_iff] <;>
    grind

end State

/-! ## Runs -/

variable {state : State} {word more front : List Char}

/-- The words of a residual are the texts that a run takes whole, to a state of the right kind. -/
theorem mem_iff_run {kind : TokenKind} {words : State → Language Char} (state : State)
    (ends : ∀ state, [] ∈ words state ↔ state.verdict = .ok kind)
    (steps : ∀ state character text,
      character :: text ∈ words state ↔ text ∈ (state.step character).elim 0 words) :
    word ∈ words state ↔
      (run state word).rest = [] ∧ (run state word).state.verdict = .ok kind := by
  induction word generalizing state with
  | nil =>
      rw [ends]
      exact (and_iff_right rfl).symm
  | cons character text ih =>
      rw [steps]
      cases taken : state.step character with
      | none => simp [run, taken, Language.notMem_zero]
      | some next => simpa [run, taken] using ih next

theorem mem_integers_iff :
    word ∈ integers ↔
      (run .nothing word).rest = [] ∧
        (run .nothing word).state.verdict = .ok .integerLiteral :=
  mem_iff_run .nothing (fun _ => State.nil_mem_integersFrom)
    fun _ _ _ => State.cons_mem_integersFrom

theorem mem_floats_iff :
    word ∈ floats ↔
      (run .nothing word).rest = [] ∧ (run .nothing word).state.verdict = .ok .floatLiteral :=
  mem_iff_run .nothing (fun _ => State.nil_mem_floatsFrom)
    fun _ _ _ => State.cons_mem_floatsFrom

/-- No number is both an integer and a float. -/
theorem notMem_floats (integer : word ∈ integers) : word ∉ floats := by
  intro float
  have verdict := (mem_integers_iff.mp integer).2.symm.trans (mem_floats_iff.mp float).2
  cases verdict

/-- A run goes on behind a text that it takes whole. -/
theorem run_append (whole : (run state word).rest = []) :
    run state (word ++ more) =
      ⟨word ++ (run (run state word).state more).taken,
        (run (run state word).state more).rest, (run (run state word).state more).state⟩ := by
  induction word generalizing state with
  | nil => rfl
  | cons character text ih =>
      simp only [run, List.cons_append] at whole ⊢
      split at whole
      next => cases whole
      next next _ => rw [ih whole]

/-- A run that takes a text whole takes whatever the text begins with. -/
theorem rest_of_append (whole : (run state (word ++ more)).rest = []) :
    (run state word).rest = [] := by
  induction word generalizing state with
  | nil => rfl
  | cons character text ih =>
      simp only [run, List.cons_append] at whole ⊢
      split at whole
      next => cases whole
      next next _ => exact ih whole

/-- What a run takes of a text it also takes of nothing but that. -/
theorem run_taken (state : State) (text : List Char) :
    run state (run state text).taken = ⟨(run state text).taken, [], (run state text).state⟩ := by
  induction text generalizing state with
  | nil => rfl
  | cons character text ih =>
      cases taken : state.step character with
      | none => simp [run, taken]
      | some next => simp [run, taken, ih]

/-! ## Viable texts -/

/-- A text that some number begins with. -/
def Viable (text : List Char) : Prop := ∃ more, text ++ more ∈ integers + floats

/-- The longest viable text at the front of another. -/
structure IsLongest (text front : List Char) : Prop where
  begins : front <+: text
  viable : Viable front
  longest : ∀ other, other <+: text → Viable other → other.length ≤ front.length

theorem State.kind_of_verdict {kind : TokenKind} (verdict : state.verdict = .ok kind) :
    kind = .integerLiteral ∨ kind = .floatLiteral := by
  cases state <;> cases verdict <;> simp

/-- Whatever has been read of a number, it can still become one. -/
theorem State.exists_completion (state : State) :
    ∃ more kind, (run state more).rest = [] ∧ (run state more).state.verdict = .ok kind := by
  cases state with
  | nothing | point | exponentMark | exponentSign | hexMark | binaryMark =>
      exact ⟨['0'], _, rfl, rfl⟩
  | hexPoint => exact ⟨['0', 'p', '0'], _, rfl, rfl⟩
  | hexFraction => exact ⟨['p', '0'], _, rfl, rfl⟩
  | _ => exact ⟨[], _, rfl, rfl⟩

/-- The viable texts are those that a run takes whole. -/
theorem viable_iff : Viable word ↔ (run .nothing word).rest = [] := by
  constructor
  · rintro ⟨more, integer | float⟩
    · exact rest_of_append (mem_integers_iff.mp integer).1
    · exact rest_of_append (mem_floats_iff.mp float).1
  · intro whole
    obtain ⟨more, kind, finished, verdict⟩ := (run .nothing word).state.exists_completion
    refine ⟨more, ?_⟩
    rw [Language.mem_add, mem_integers_iff, mem_floats_iff, run_append whole]
    rcases State.kind_of_verdict verdict with rfl | rfl
    · exact .inl ⟨finished, verdict⟩
    · exact .inr ⟨finished, verdict⟩

/-- A run takes the longest viable text, and no other text is that. -/
theorem isLongest_iff : IsLongest text front ↔ front = (run .nothing text).taken := by
  have begins : (run .nothing text).taken <+: text := ⟨_, run_split .nothing text⟩
  have viable : Viable (run .nothing text).taken := viable_iff.mpr (by rw [run_taken])
  have longest : ∀ other, other <+: text → Viable other →
      other.length ≤ (run .nothing text).taken.length := by
    rintro other ⟨more, rfl⟩ viable
    rw [run_append (viable_iff.mp viable), List.length_append]
    omega
  constructor
  · intro isLongest
    refine List.IsPrefix.eq_of_length_le ?_ (isLongest.longest _ begins viable)
    exact List.prefix_of_prefix_length_le isLongest.begins begins
      (longest front isLongest.begins isLongest.viable)
  · rintro rfl
    exact ⟨begins, viable, longest⟩

theorem IsLongest.run_eq (isLongest : IsLongest text front) :
    run .nothing text = ⟨front, text.drop front.length, (run .nothing front).state⟩ := by
  obtain rfl := isLongest_iff.mp isLongest
  have rest := congrArg (List.drop (run .nothing text).taken.length) (run_split .nothing text)
  rw [List.drop_left] at rest
  rw [run_taken, ← rest]

end Number

open Number

variable {character : Char} {text front : List Char}

/-! ## Tokens -/

theorem number_of_integer (isLongest : IsLongest text front) (integer : front ∈ integers) :
    number text = .verbatim .integerLiteral front (text.drop front.length) := by
  simp only [number, isLongest.run_eq, (mem_integers_iff.mp integer).2]

theorem number_of_float (isLongest : IsLongest text front) (float : front ∈ floats) :
    number text = .verbatim .floatLiteral front (text.drop front.length) := by
  simp only [number, isLongest.run_eq, (mem_floats_iff.mp float).2]

theorem number_of_neither (isLongest : IsLongest text front)
    (neither : front ∉ integers + floats) :
    ∃ detail, number text =
      .faulty (.invalidNumber (String.ofList front) detail) front (text.drop front.length) := by
  have whole := viable_iff.mp isLongest.viable
  rw [Language.mem_add, mem_integers_iff, mem_floats_iff] at neither
  cases verdict : (run .nothing front).state.verdict with
  | error detail =>
      simp only [number, isLongest.run_eq, verdict]
      exact ⟨detail, rfl⟩
  | ok kind =>
      rcases State.kind_of_verdict verdict with rfl | rfl
      · exact absurd (.inl ⟨whole, verdict⟩) neither
      · exact absurd (.inr ⟨whole, verdict⟩) neither

theorem isSpace_of_numeric (numeric : character = '.' ∨ character.isDigit = true) :
    isSpace character = false := by
  rcases numeric with rfl | digit
  · rfl
  · have code := isDigit_iff.mp digit
    simp only [isSpace, Bool.or_eq_false_iff, beq_eq_false_iff_ne, ne_eq, ← Char.toNat_inj,
      Char.reduceToNat]
    omega

/-- Where a digit or a point stands, a number is read. -/
theorem scan_of_numeric (numeric : character = '.' ∨ character.isDigit = true) :
    scan (character :: text) = number (character :: text) := by
  have unlike : ∀ other : Char, other ≠ '.' → other.isDigit = false → character ≠ other := by
    rintro other point digit rfl
    simp [point, digit] at numeric
  have sigil : VariableKind.ofSigil? character = none := by
    simp [VariableKind.ofSigil?, unlike '$' (by decide) rfl, unlike '@' (by decide) rfl,
      unlike '%' (by decide) rfl]
  simp [scan, unlike '%' (by decide) rfl, sigil, numeric]

end Lexeme

open Lexeme Number

/-- Numbers are read by the longest viable text.  Where a digit or a point stands there is just one
such text, and exactly this text is passed: as an integer or a float if it is one, and as an invalid
number if it is neither. -/
theorem Cursor.nextToken_number (cursor : Cursor) (character : Char) (text : List Char)
    (starts : cursor.rest = character :: text)
    (numeric : character = '.' ∨ character.isDigit = true) :
    (∃! front, IsLongest cursor.rest front) ∧
    ∀ front, IsLongest cursor.rest front →
      let after : Cursor :=
        ⟨cursor.rest.drop front.length, cursor.place.past front, cursor.file⟩
      let span : Span := ⟨cursor.position, after.position⟩
      (front ∈ integers → front ∉ floats ∧
        cursor.nextToken = (.ok ⟨.integerLiteral, String.ofList front, span⟩, after)) ∧
      (front ∈ floats → front ∉ integers ∧
        cursor.nextToken = (.ok ⟨.floatLiteral, String.ofList front, span⟩, after)) ∧
      (front ∉ integers + floats → ∃ detail,
        cursor.nextToken =
          (.error ⟨.invalidNumber (String.ofList front) detail, cursor.position⟩, after)) := by
  have read := nextToken_of_visible starts (isSpace_of_numeric numeric)
  rw [scan_of_numeric numeric, ← starts] at read
  refine ⟨⟨_, isLongest_iff.mpr rfl, fun _ => isLongest_iff.mp⟩, fun front isLongest => ?_⟩
  rw [read]
  refine ⟨fun integer => ⟨notMem_floats integer, ?_⟩,
    fun float => ⟨fun integer => notMem_floats integer float, ?_⟩, fun neither => ?_⟩
  · rw [number_of_integer isLongest integer]
    rfl
  · rw [number_of_float isLongest float]
    rfl
  · obtain ⟨detail, faulty⟩ := number_of_neither isLongest neither
    rw [faulty]
    exact ⟨detail, rfl⟩

/-- An eight among octal digits leaves the suffix of a float, and the sign behind it is no part of
the number. -/
theorem Cursor.nextToken_number_promoted :
    let cursor : Cursor := ⟨['0', '7', '8', 'f', '+', '1'], .start, unnamed⟩
    ('0' = '.' ∨ '0'.isDigit = true) ∧
      IsLongest cursor.rest ['0', '7', '8', 'f'] ∧
      ['0', '7', '8', 'f'] ∈ floats ∧
      cursor.nextToken.1.toOption.map Token.kind = some .floatLiteral ∧
      cursor.nextToken.2.rest = ['+', '1'] := by
  have isLongest : IsLongest ['0', '7', '8', 'f', '+', '1'] ['0', '7', '8', 'f'] :=
    isLongest_iff.mpr rfl
  have float : ['0', '7', '8', 'f'] ∈ floats := mem_floats_iff.mpr ⟨rfl, rfl⟩
  have read := ((nextToken_number ⟨['0', '7', '8', 'f', '+', '1'], .start, unnamed⟩ '0'
    ['7', '8', 'f', '+', '1'] rfl (.inr rfl)).2 _ isLongest).2.1 float
  refine ⟨.inr rfl, isLongest, float, ?_, ?_⟩
  · rw [read.2]
    rfl
  · rw [read.2]
    rfl

end Scriptlet
