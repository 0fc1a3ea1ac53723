import Verixa.Encoding.JsonRoundTrip

/-!
# Arrays of strings as JSON

`JSON.stringify` for arrays of strings.  What it writes, `parse` reads back (`parse_arrayText`).
-/

namespace Encoding

namespace Json

/-- `JSON.stringify(texts)`. -/
def arrayText (texts : List CodeUnits) : List Char :=
  '[' :: ([','].intercalate (texts.map quote) ++ [']'])

/-- The strings of an array that holds nothing else. -/
def Value.texts? : Value → Option (List CodeUnits)
  | .array items => items.mapM fun
    | .string units => some units
    | _ => none
  | _ => none

theorem texts?_array_string (texts : List CodeUnits) :
    (Value.array (texts.map .string)).texts? = some texts := by
  rw [Value.texts?]
  induction texts with
  | nil => rfl
  | cons text texts ih => rw [List.map_cons, List.mapM_cons, ih]; rfl

/-! ## Reading -/

/-- A string is read with anything behind it. -/
theorem readValue_quote (fuel : ℕ) (units : CodeUnits) (rest : List Char) :
    readValue (fuel + 1) (quote units ++ rest) = some (.string units, rest) := by
  rw [quote, List.cons_append, List.append_assoc, List.singleton_append, readValue,
    skipWhiteSpace_cons rfl]
  dsimp only
  rw [if_pos rfl, readString_quote]
  rfl

/-- The last item of an array. -/
theorem readItems_last (fuel : ℕ) (units : CodeUnits) (rest : List Char) :
    readItems (fuel + 2) (quote units ++ ']' :: rest) = some ([.string units], rest) := by
  rw [readItems]
  simp only [readValue_quote, expect_self (c := ']') rfl, Option.bind_eq_bind, Option.bind_some,
    Option.pure_def]

/-- An item before others. -/
theorem readItems_cons (fuel : ℕ) (units : CodeUnits) (rest : List Char) :
    readItems (fuel + 2) (quote units ++ ',' :: rest) =
      (readItems (fuel + 1) rest).map fun read => (.string units :: read.1, read.2) := by
  rw [readItems]
  simp only [readValue_quote, expect_other (c := ']') (d := ',') rfl (by decide),
    expect_self (c := ',') rfl, Option.bind_eq_bind, Option.bind_some, Option.pure_def]
  cases readItems (fuel + 1) rest with
  | none => rfl
  | some read => rfl

/-- The items of an array, with fuel for each of them. -/
theorem readItems_texts (text : CodeUnits) (texts : List CodeUnits) (rest : List Char) {fuel : ℕ}
    (hfuel : texts.length + 2 ≤ fuel) :
    readItems fuel ([','].intercalate ((text :: texts).map quote) ++ ']' :: rest) =
      some ((text :: texts).map .string, rest) := by
  induction texts generalizing text fuel with
  | nil =>
    obtain ⟨k, rfl⟩ := Nat.exists_eq_add_of_le' hfuel
    rw [List.map_singleton, List.intercalate_singleton, List.length_nil, Nat.zero_add,
      readItems_last]
    rfl
  | cons next texts ih =>
    obtain ⟨k, rfl⟩ := Nat.exists_eq_add_of_le' hfuel
    have hsplit : [','].intercalate ((text :: next :: texts).map quote) =
        quote text ++ ',' :: [','].intercalate ((next :: texts).map quote) := by
      simp only [List.map_cons, List.intercalate_cons_cons, List.append_assoc,
        List.singleton_append]
    have hfuel' : k + ((next :: texts).length + 2) = (k + texts.length + 1) + 2 := by
      rw [List.length_cons]
      omega
    rw [hsplit, List.append_assoc, List.cons_append, hfuel', readItems_cons, ih next (by omega)]
    rfl

/-- A string takes up more than its comma. -/
theorem length_texts_le (text : CodeUnits) (texts : List CodeUnits) :
    texts.length + 2 ≤ ([','].intercalate ((text :: texts).map quote)).length := by
  induction texts generalizing text with
  | nil =>
    simp only [List.map_singleton, List.intercalate_singleton, quote, List.length_append,
      List.length_cons, List.length_nil]
    omega
  | cons next texts ih =>
    have hnext := ih next
    simp only [List.map_cons, List.intercalate_cons_cons, List.length_append, List.length_cons,
      List.length_nil] at hnext ⊢
    omega

/-- The items of an array begin with a quote. -/
theorem exists_quote_texts (text : CodeUnits) (texts : List CodeUnits) (rest : List Char) :
    ∃ others, [','].intercalate ((text :: texts).map quote) ++ rest = '"' :: others := by
  cases texts with
  | nil => exact ⟨_, rfl⟩
  | cons next texts =>
    rw [List.map_cons, List.map_cons, List.intercalate_cons_cons, List.append_assoc,
      List.append_assoc]
    exact ⟨_, rfl⟩

/-- What is written of an array of strings is read back. -/
theorem parse_arrayText (texts : List CodeUnits) :
    parse (arrayText texts) = some (.array (texts.map .string)) := by
  have hread : readValue ((arrayText texts).length + 1) (arrayText texts) =
      some (.array (texts.map .string), []) := by
    rw [readValue, arrayText, skipWhiteSpace_cons rfl]
    dsimp only
    rw [if_neg (by decide), if_neg (by decide), if_pos rfl]
    cases texts with
    | nil => rfl
    | cons text texts =>
      have hlength := length_texts_le text texts
      have hfuel : texts.length + 2 ≤
          ('[' :: ([','].intercalate ((text :: texts).map quote) ++ [']'])).length := by
        rw [List.length_cons, List.length_append]
        omega
      have hitems := readItems_texts text texts [] hfuel
      obtain ⟨others, hothers⟩ := exists_quote_texts text texts [']']
      have hbracket : expect ']' ([','].intercalate ((text :: texts).map quote) ++ [']']) =
          none := by
        rw [hothers]
        exact expect_other rfl (by decide) others
      rw [hbracket]
      dsimp only
      rw [hitems]
      rfl
  rw [parse, hread]
  rfl

end Json

end Encoding
