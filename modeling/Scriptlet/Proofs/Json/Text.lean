import Scriptlet.Json.Pretty

/-!
# Values and their text

The text of a value shows where the value ends.  Two values with more text behind them are written
alike only if the values are the same and the text behind them is (`pretty_inj`).

Inside a string every character is written by a code that begins no other code, and none of them
begins with a quote, so nothing in a string can be taken for its end.  Numbers have no mark at their
end.  They end because no digit follows them, which is all that is asked of the text behind a value
(`Stops`).
-/

namespace Scriptlet.Json

variable {character other : Char} {text after behind : List Char} {depth : Nat}

/-! ## Strings -/

/-- The characters that do not stand for themselves in a string. -/
def specials : List Char := '"' :: '\\' :: (List.range 0x20).map Char.ofNat

theorem mem_specials_of_control (control : character.toNat < 0x20) : character ∈ specials := by
  have listed : character ∈ (List.range 0x20).map Char.ofNat :=
    List.mem_map.mpr ⟨character.toNat, List.mem_range.mpr control, Char.ofNat_toNat character⟩
  exact .tail _ (.tail _ listed)

theorem escaped_of_not_mem (plain : character ∉ specials) : escaped character = [character] := by
  have unlike : ∀ special ∈ specials, character ≠ special := by
    rintro special listed rfl
    exact plain listed
  have printed : ¬ character.toNat < 0x20 := fun control => plain (mem_specials_of_control control)
  rw [escaped, if_neg (unlike '"' (by decide)), if_neg (unlike '\\' (by decide)),
    if_neg (unlike '\x08' (by decide)), if_neg (unlike '\x0C' (by decide)),
    if_neg (unlike '\n' (by decide)), if_neg (unlike '\r' (by decide)),
    if_neg (unlike '\t' (by decide)), if_neg printed]

theorem head?_escaped_of_mem (special : character ∈ specials) :
    (escaped character).head? = some '\\' := by
  have table : (specials.all fun special => (escaped special).head? == some '\\') = true := by
    decide +kernel
  exact beq_iff_eq.mp (List.all_eq_true.mp table character special)

/-- No code of a character begins with the code of another one. -/
theorem escaped_prefixFree (front : escaped character <+: escaped other) : character = other := by
  have table : (specials.all fun one => specials.all fun another =>
      !(escaped one).isPrefixOf (escaped another) || one == another) = true := by
    decide +kernel
  by_cases special : character ∈ specials
  · by_cases specialToo : other ∈ specials
    · have entry := List.all_eq_true.mp (List.all_eq_true.mp table character special) other
        specialToo
      rw [List.isPrefixOf_iff_prefix.mpr front] at entry
      exact beq_iff_eq.mp entry
    · -- The code of a special character begins with a backslash, which no other character does.
      obtain ⟨others, code⟩ := List.head?_eq_some_iff.mp (head?_escaped_of_mem special)
      rw [code, escaped_of_not_mem specialToo, List.cons_prefix_cons] at front
      rw [← front.1] at specialToo
      exact absurd (by decide) specialToo
  · rw [escaped_of_not_mem special] at front
    obtain ⟨others, code⟩ := front
    by_cases specialToo : other ∈ specials
    · have begins := head?_escaped_of_mem specialToo
      rw [← code] at begins
      cases begins
      exact absurd (by decide) special
    · rw [escaped_of_not_mem specialToo] at code
      exact (List.cons.inj code).1

theorem escaped_append_inj (equal : escaped character ++ after = escaped other ++ behind) :
    character = other ∧ after = behind := by
  have same : character = other := by
    obtain front | front := List.prefix_or_prefix_of_prefix (List.prefix_append _ _)
      (equal ▸ List.prefix_append (escaped other) behind)
    · exact escaped_prefixFree front
    · exact (escaped_prefixFree front).symm
  subst same
  exact ⟨rfl, List.append_cancel_left equal⟩

/-- The code of a character cannot be taken for the end of a string. -/
theorem exists_escaped_cons (character : Char) :
    ∃ first others, escaped character = first :: others ∧ first ≠ '"' := by
  by_cases special : character ∈ specials
  · obtain ⟨others, code⟩ := List.head?_eq_some_iff.mp (head?_escaped_of_mem special)
    exact ⟨'\\', others, code, by decide⟩
  · refine ⟨character, [], escaped_of_not_mem special, ?_⟩
    rintro rfl
    exact special (by decide)

/-- The characters of a string are told up to the quote that ends it. -/
theorem flatMap_escaped_inj {left right : List Char}
    (equal : left.flatMap escaped ++ '"' :: after = right.flatMap escaped ++ '"' :: behind) :
    left = right ∧ after = behind := by
  induction left generalizing right with
  | nil =>
      cases right with
      | nil => exact ⟨rfl, (List.cons.inj equal).2⟩
      | cons character right =>
          obtain ⟨first, others, code, unlike⟩ := exists_escaped_cons character
          rw [List.flatMap_cons, code] at equal
          exact absurd (List.cons.inj equal).1.symm unlike
  | cons character left ih =>
      cases right with
      | nil =>
          obtain ⟨first, others, code, unlike⟩ := exists_escaped_cons character
          rw [List.flatMap_cons, code] at equal
          exact absurd (List.cons.inj equal).1 unlike
      | cons other right =>
          rw [List.flatMap_cons, List.flatMap_cons, List.append_assoc, List.append_assoc] at equal
          obtain ⟨rfl, others⟩ := escaped_append_inj equal
          obtain ⟨rfl, same⟩ := ih others
          exact ⟨rfl, same⟩

theorem stringText_append_inj {left right : String}
    (equal : stringText left ++ after = stringText right ++ behind) :
    left = right ∧ after = behind := by
  simp only [stringText, List.cons_append, List.append_assoc, List.cons.injEq, true_and] at equal
  obtain ⟨same, rest⟩ := flatMap_escaped_inj equal
  exact ⟨String.toList_inj.mp same, rest⟩

/-! ## Numbers -/

/-- No number goes on in this text. -/
def Stops (text : List Char) : Prop := ∀ c ∈ text.head?, c.isDigit = false

theorem stops_nil : Stops [] := by rintro c ⟨⟩

theorem isDigit_of_mem_toDigits {value : Nat} (digit : character ∈ Nat.toDigits 10 value) :
    character.isDigit = true :=
  Nat.isDigit_of_mem_toDigits (by decide) (by decide) digit

theorem takeWhile_toDigits_append (value : Nat) (stops : Stops after) :
    (Nat.toDigits 10 value ++ after).takeWhile Char.isDigit = Nat.toDigits 10 value := by
  have nothing : after.takeWhile Char.isDigit = [] := by
    cases after with
    | nil => rfl
    | cons next after => exact List.takeWhile_cons_of_neg (by simp [stops next rfl])
  rw [List.takeWhile_append_of_pos fun _ => isDigit_of_mem_toDigits, nothing, List.append_nil]

theorem toDigits_append_inj {left right : Nat} (stops : Stops after) (ends : Stops behind)
    (equal : Nat.toDigits 10 left ++ after = Nat.toDigits 10 right ++ behind) :
    left = right ∧ after = behind := by
  have digits : Nat.toDigits 10 left = Nat.toDigits 10 right := by
    rw [← takeWhile_toDigits_append left stops, equal, takeWhile_toDigits_append right ends]
  refine ⟨?_, ?_⟩
  · calc
      left = Nat.ofDigitChars 10 (Nat.toDigits 10 left) 0 := Nat.ofDigitChars_ten_toDigits.symm
      _ = Nat.ofDigitChars 10 (Nat.toDigits 10 right) 0 := by rw [digits]
      _ = right := Nat.ofDigitChars_ten_toDigits
  · rw [digits] at equal
    exact List.append_cancel_left equal

/-! ## Values -/

/-- The kinds of values. -/
inductive Kind where
  | null
  | number
  | text
  | list
  | object

/-- What kind of value it is. -/
def kind : Json → Kind
  | .null => .null
  | .number _ => .number
  | .text _ => .text
  | .list _ => .list
  | .object _ => .object

/-- The kind of the values whose text begins with this character. -/
def Kind.ofFirst (first : Char) : Kind :=
  if first.isDigit then .number
  else if first = '"' then .text
  else if first = '[' then .list
  else if first = '\x7b' then .object
  else .null

/-- The first character of a text tells the kind of the value. -/
theorem ofFirst_pretty (depth : Nat) (after : List Char) (json : Json) :
    (pretty depth after json).head?.map Kind.ofFirst = some json.kind := by
  cases json with
  | null => rfl
  | text value => rfl
  | number value =>
      obtain ⟨digit, digits, written⟩ := List.exists_cons_of_ne_nil (@Nat.toDigits_ne_nil value 10)
      have isDigit : digit.isDigit = true :=
        @isDigit_of_mem_toDigits _ value (written ▸ List.mem_cons_self)
      simp [pretty, written, Kind.ofFirst, isDigit, kind]
  | list items =>
      cases items <;> rfl
  | object members =>
      cases members <;> rfl

theorem kind_eq_of_pretty_eq {left right : Json}
    (equal : pretty depth after left = pretty depth behind right) : left.kind = right.kind := by
  have told := ofFirst_pretty depth after left
  rw [equal, ofFirst_pretty] at told
  exact (Option.some.inj told).symm

/-- Behind the last item or member of a value comes a new line. -/
theorem stops_of_feed (feed : text.head? = some '\n') : Stops text := by
  intro c next
  cases feed.symm.trans next
  rfl

theorem stops_prettyItems (stops : Stops after) (items : List Json) :
    Stops (prettyItems depth after items) := by
  cases items with
  | nil => exact stops
  | cons item items =>
      rintro c ⟨⟩
      rfl

theorem stops_prettyMembers (stops : Stops after) (members : List (String × Json)) :
    Stops (prettyMembers depth after members) := by
  cases members with
  | nil => exact stops
  | cons first members =>
      rintro c ⟨⟩
      rfl

mutual

/-- Values that are written alike, with text behind them, are the same and have the same text behind
them. -/
theorem pretty_inj : (left right : Json) → {depth : Nat} → {after behind : List Char} →
    Stops after → Stops behind → pretty depth after left = pretty depth behind right →
    left = right ∧ after = behind
  | .null, right, _, _, _, _, _, equal => by
      cases right with
      | null => simpa [pretty] using equal
      | _ => cases kind_eq_of_pretty_eq equal
  | .number value, right, _, _, _, stops, ends, equal => by
      cases right with
      | number other =>
          simp only [pretty] at equal
          obtain ⟨rfl, same⟩ := toDigits_append_inj stops ends equal
          exact ⟨rfl, same⟩
      | _ => cases kind_eq_of_pretty_eq equal
  | .text value, right, _, _, _, _, _, equal => by
      cases right with
      | text other =>
          simp only [pretty] at equal
          obtain ⟨rfl, same⟩ := stringText_append_inj equal
          exact ⟨rfl, same⟩
      | _ => cases kind_eq_of_pretty_eq equal
  | .list [], right, _, _, _, _, _, equal => by
      cases right with
      | list others =>
          cases others with
          | nil => simpa [pretty] using equal
          | cons => simp [pretty, newLine] at equal
      | _ => cases kind_eq_of_pretty_eq equal
  | .list (item :: items), right, _, _, _, _, _, equal => by
      cases right with
      | list others =>
          cases others with
          | nil => simp [pretty, newLine] at equal
          | cons other others =>
              simp only [pretty, List.cons_append, List.cons.injEq, true_and,
                List.append_cancel_left_eq] at equal
              obtain ⟨rfl, further⟩ := pretty_inj item other
                (stops_prettyItems (stops_of_feed rfl) _) (stops_prettyItems (stops_of_feed rfl) _)
                equal
              obtain ⟨rfl, closing⟩ := prettyItems_inj items others rfl rfl further
              exact ⟨rfl, (List.cons.inj (List.append_cancel_left closing)).2⟩
      | _ => cases kind_eq_of_pretty_eq equal
  | .object [], right, _, _, _, _, _, equal => by
      cases right with
      | object others =>
          cases others with
          | nil => simpa [pretty] using equal
          | cons => simp [pretty, newLine] at equal
      | _ => cases kind_eq_of_pretty_eq equal
  | .object ((key, value) :: members), right, _, _, _, _, _, equal => by
      cases right with
      | object others =>
          cases others with
          | nil => simp [pretty, newLine] at equal
          | cons first others =>
              obtain ⟨other, otherValue⟩ := first
              simp only [pretty, List.cons_append, List.cons.injEq, true_and, List.append_assoc,
                List.append_cancel_left_eq] at equal
              obtain ⟨rfl, written⟩ := stringText_append_inj equal
              simp only [List.cons.injEq, true_and] at written
              obtain ⟨rfl, further⟩ := pretty_inj value otherValue
                (stops_prettyMembers (stops_of_feed rfl) _)
                (stops_prettyMembers (stops_of_feed rfl) _) written
              obtain ⟨rfl, closing⟩ := prettyMembers_inj members others rfl rfl further
              exact ⟨rfl, (List.cons.inj (List.append_cancel_left closing)).2⟩
      | _ => cases kind_eq_of_pretty_eq equal

/-- The same for the further items of a list, up to the line that closes it. -/
theorem prettyItems_inj : (left right : List Json) → {depth : Nat} → {after behind : List Char} →
    after.head? = some '\n' → behind.head? = some '\n' →
    prettyItems depth after left = prettyItems depth behind right → left = right ∧ after = behind
  | [], [], _, _, _, _, _, equal => ⟨rfl, equal⟩
  | [], _ :: _, _, _, _, closes, _, equal => by
      simp only [prettyItems] at equal
      rw [equal] at closes
      cases closes
  | _ :: _, [], _, _, _, _, closes, equal => by
      simp only [prettyItems] at equal
      rw [← equal] at closes
      cases closes
  | item :: items, other :: others, _, _, _, closes, ends, equal => by
      simp only [prettyItems, List.cons_append, List.cons.injEq, true_and,
        List.append_cancel_left_eq] at equal
      obtain ⟨rfl, further⟩ := pretty_inj item other
        (stops_prettyItems (stops_of_feed closes) _) (stops_prettyItems (stops_of_feed ends) _)
        equal
      obtain ⟨rfl, same⟩ := prettyItems_inj items others closes ends further
      exact ⟨rfl, same⟩

/-- The same for the further members of an object, up to the line that closes it. -/
theorem prettyMembers_inj : (left right : List (String × Json)) → {depth : Nat} →
    {after behind : List Char} → after.head? = some '\n' → behind.head? = some '\n' →
    prettyMembers depth after left = prettyMembers depth behind right →
    left = right ∧ after = behind
  | [], [], _, _, _, _, _, equal => ⟨rfl, equal⟩
  | [], _ :: _, _, _, _, closes, _, equal => by
      simp only [prettyMembers] at equal
      rw [equal] at closes
      cases closes
  | _ :: _, [], _, _, _, _, closes, equal => by
      simp only [prettyMembers] at equal
      rw [← equal] at closes
      cases closes
  | (key, value) :: members, (other, otherValue) :: others, _, _, _, closes, ends, equal => by
      simp only [prettyMembers, List.cons_append, List.cons.injEq, true_and, List.append_assoc,
        List.append_cancel_left_eq] at equal
      obtain ⟨rfl, written⟩ := stringText_append_inj equal
      simp only [List.cons.injEq, true_and] at written
      obtain ⟨rfl, further⟩ := pretty_inj value otherValue
        (stops_prettyMembers (stops_of_feed closes) _) (stops_prettyMembers (stops_of_feed ends) _)
        written
      obtain ⟨rfl, same⟩ := prettyMembers_inj members others closes ends further
      exact ⟨rfl, same⟩

end

/-- The text of a value determines the value. -/
theorem toText_inj {left right : Json} (equal : left.toText = right.toText) : left = right :=
  (pretty_inj left right stops_nil stops_nil (String.ofList_injective equal)).1

end Scriptlet.Json
