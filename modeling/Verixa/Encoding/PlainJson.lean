import Verixa.Encoding.JsonRoundTrip
import Verixa.Encoding.PlainValue

/-!
# The JSON text of a plain value

`JSON.stringify` of plain data, and what it tells: two values have the same text exactly if the same
is left of them after `JSON.parse(JSON.stringify(value))`.  The texts of finite numbers are a
parameter; they differ for different numbers and hold no character that stands behind a value.
-/

namespace Verixa

open Encoding

/-! ## Texts of numbers -/

/-- The characters that stand behind a value inside of an array or an object. -/
def isDelimiter (c : Char) : Bool := c == ',' || c == ']' || c == '\x7d'

/-- `String(value)` for finite numbers. -/
structure Numerals where
  text : ℚ → String
  injective : Function.Injective text
  starts : ∀ value, ∃ c rest, (text value).toList = c :: rest ∧ (c = '-' ∨ c.isDigit = true)
  plain : ∀ value, ∀ c ∈ (text value).toList, isDelimiter c = false

/-- The text of a whole number begins with a sign or a digit, and holds nothing else. -/
theorem repr_int_spec (n : ℤ) :
    (∃ c rest, n.repr.toList = c :: rest ∧ (c = '-' ∨ c.isDigit = true)) ∧
      ∀ c ∈ n.repr.toList, c = '-' ∨ c.isDigit = true := by
  have hdigits : ∀ m : ℕ, ∀ c ∈ (Nat.repr m).toList, c.isDigit = true := fun m c hc =>
    isDigit_of_mem_repr hc
  rw [Int.repr_eq_if]
  split
  · obtain ⟨c, rest, hrepr⟩ : ∃ c rest, (Nat.repr n.toNat).toList = c :: rest :=
      List.exists_cons_of_ne_nil fun hnil => Nat.repr_ne_empty (String.toList_eq_nil_iff.mp hnil)
    refine ⟨⟨c, rest, hrepr, .inr (hdigits n.toNat c ?_)⟩, fun c hc =>
      .inr (hdigits n.toNat c hc)⟩
    rw [hrepr]
    exact List.mem_cons_self
  · refine ⟨⟨'-', _, String.toList_append, .inl rfl⟩, ?_⟩
    intro c hc
    rw [String.toList_append] at hc
    rcases List.mem_append.mp hc with hsign | hdigit
    · exact .inl (by simpa using hsign)
    · exact .inr (hdigits _ c hdigit)

/-- The text of a quotient: its numerator, and its denominator unless that is one. -/
def quotientText (q : ℚ) : String :=
  q.num.repr ++ if q.den = 1 then "" else "/" ++ Nat.repr q.den

theorem quotientText_injective : Function.Injective quotientText := by
  intro a b h
  have hlists := congrArg String.toList h
  rw [quotientText, quotientText, String.toList_append, String.toList_append] at hlists
  have hslash : ∀ n : ℤ, '/' ∉ n.repr.toList := by
    intro n hmem
    rcases (repr_int_spec n).2 _ hmem with hsign | hdigit
    · exact absurd hsign (by decide)
    · exact absurd hdigit (by decide)
  have hends : ∀ q : ℚ, ∀ c ∈ (if q.den = 1 then "" else "/" ++ Nat.repr q.den).toList.head?,
      c = '/' := by
    intro q c hc
    split at hc
    · simp at hc
    · rw [String.toList_append] at hc
      exact (Option.some.inj hc).symm
  obtain ⟨hnum, hden⟩ := append_cancel_of_not_mem (hslash _) (hslash _) (hends a) (hends b) hlists
  apply Rat.ext (Int.repr_injective (String.toList_injective hnum))
  have hden' := String.toList_injective hden
  by_cases ha : a.den = 1 <;> by_cases hb : b.den = 1
  · rw [ha, hb]
  · rw [if_pos ha, if_neg hb] at hden'
    exact absurd (congrArg String.toList hden') (by simp)
  · rw [if_neg ha, if_pos hb] at hden'
    exact absurd (congrArg String.toList hden') (by simp)
  · rw [if_neg ha, if_neg hb] at hden'
    have hrepr := String.toList_injective (List.append_cancel_left
      (String.toList_append.symm.trans ((congrArg String.toList hden').trans String.toList_append)))
    exact toList_repr_injective (congrArg String.toList hrepr)

/-- Numbers written as quotients, whole ones by their digits. -/
def quotients : Numerals where
  text := quotientText
  injective := quotientText_injective
  starts q := by
    obtain ⟨c, rest, hrepr, hc⟩ := (repr_int_spec q.num).1
    refine ⟨c, rest ++ (if q.den = 1 then "" else "/" ++ Nat.repr q.den).toList, ?_, hc⟩
    rw [quotientText, String.toList_append, hrepr, List.cons_append]
  plain q := by
    have hdigit : ∀ c : Char, c = '-' ∨ c.isDigit = true → isDelimiter c = false := by
      rintro c (rfl | hc)
      · rfl
      · by_contra hdelimiter
        rw [Bool.not_eq_false, isDelimiter] at hdelimiter
        simp only [Bool.or_eq_true, beq_iff_eq] at hdelimiter
        rcases hdelimiter with (rfl | rfl) | rfl <;> exact absurd hc (by decide)
    intro c hc
    rw [quotientText, String.toList_append] at hc
    rcases List.mem_append.mp hc with hnum | hden
    · exact hdigit c ((repr_int_spec q.num).2 c hnum)
    · split at hden
      · exact nomatch hden
      · rw [String.toList_append] at hden
        rcases List.mem_append.mp hden with hslash | hrepr
        · obtain rfl : c = '/' := by simpa using hslash
          rfl
        · exact hdigit c (.inr (isDigit_of_mem_repr hrepr))

/-! ## Texts -/

namespace PlainValue

section

variable (numerals : Numerals)

mutual

/-- `JSON.stringify(value)`. -/
def json : PlainValue → List Char
  | .null => ['n', 'u', 'l', 'l']
  | .boolean true => ['t', 'r', 'u', 'e']
  | .boolean false => ['f', 'a', 'l', 's', 'e']
  | .number (.finite value) => (numerals.text value).toList
  | .number _ => ['n', 'u', 'l', 'l']
  | .string value => Json.quote (unitsOf value)
  | .array items => '[' :: (jsonItems items ++ [']'])
  | .object fields => '\x7b' :: (jsonFields fields ++ ['\x7d'])

/-- The items of an array. -/
def jsonItems : List PlainValue → List Char
  | [] => []
  | item :: items => json item ++ if items.isEmpty then [] else ',' :: jsonItems items

/-- The members of an object. -/
def jsonFields : List (String × PlainValue) → List Char
  | [] => []
  | (key, value) :: fields =>
    Json.quote (unitsOf key) ++ ':' :: (json value ++
      if fields.isEmpty then [] else ',' :: jsonFields fields)

end

end

variable {numerals : Numerals}

/-! ## Values with the same text -/

mutual

/-- The text is that of the value as it is read back. -/
theorem json_reparsed : ∀ value : PlainValue, json numerals value.reparsed = json numerals value
  | .null | .boolean _ | .string _ | .number (.finite _) => rfl
  | .number .nan | .number .infinity | .number .negativeInfinity => rfl
  | .array items => by rw [reparsed, json, json, jsonItems_reparsedItems items]
  | .object fields => by rw [reparsed, json, json, jsonFields_reparsedFields fields]

theorem jsonItems_reparsedItems : ∀ items : List PlainValue,
    jsonItems numerals (reparsedItems items) = jsonItems numerals items
  | [] => rfl
  | item :: items => by
    have hempty : (reparsedItems items).isEmpty = items.isEmpty := by cases items <;> rfl
    rw [reparsedItems, jsonItems, jsonItems, json_reparsed item, jsonItems_reparsedItems items,
      hempty]

theorem jsonFields_reparsedFields : ∀ fields : List (String × PlainValue),
    jsonFields numerals (reparsedFields fields) = jsonFields numerals fields
  | [] => rfl
  | (key, value) :: fields => by
    have hempty : (reparsedFields fields).isEmpty = fields.isEmpty := by cases fields <;> rfl
    rw [reparsedFields, jsonFields, jsonFields, json_reparsed value,
      jsonFields_reparsedFields fields, hempty]

end

/-! ## What the text tells -/

/-- What the first character of a text tells of the value. -/
def kindOf (c : Char) : ℕ :=
  if c = '"' then 0 else if c = '[' then 1 else if c = '\x7b' then 2 else if c = 'n' then 3
  else if c = 't' then 4 else if c = 'f' then 5 else 6

/-- The kind of a value, as far as its text tells. -/
def kind : PlainValue → ℕ
  | .string _ => 0
  | .array _ => 1
  | .object _ => 2
  | .null | .number .nan | .number .infinity | .number .negativeInfinity => 3
  | .boolean true => 4
  | .boolean false => 5
  | .number (.finite _) => 6

/-- No digit begins the text of another value. -/
theorem kindOf_numeral {c : Char} (h : c = '-' ∨ c.isDigit = true) : kindOf c = 6 := by
  rcases h with rfl | hdigit
  · rfl
  · have hne : ∀ d : Char, d.isDigit = false → c ≠ d := by
      rintro d hd rfl
      exact nomatch hd.symm.trans hdigit
    rw [kindOf, if_neg (hne _ (by decide)), if_neg (hne _ (by decide)), if_neg (hne _ (by decide)),
      if_neg (hne _ (by decide)), if_neg (hne _ (by decide)), if_neg (hne _ (by decide))]

/-- A text begins as its value tells, and with no delimiter. -/
theorem exists_cons_json (numerals : Numerals) (value : PlainValue) :
    ∃ c rest, json numerals value = c :: rest ∧ kindOf c = kind value ∧
      isDelimiter c = false := by
  cases value with
  | null => exact ⟨_, _, rfl, rfl, rfl⟩
  | boolean value => cases value <;> exact ⟨_, _, rfl, rfl, rfl⟩
  | string value => exact ⟨_, _, rfl, rfl, rfl⟩
  | array items => exact ⟨_, _, rfl, rfl, rfl⟩
  | object fields => exact ⟨_, _, rfl, rfl, rfl⟩
  | number value =>
    cases value with
    | finite value =>
      obtain ⟨c, rest, htext, hc⟩ := numerals.starts value
      refine ⟨c, rest, htext, kindOf_numeral hc, numerals.plain value c ?_⟩
      rw [htext]
      exact List.mem_cons_self
    | _ => exact ⟨_, _, rfl, rfl, rfl⟩

/-- Values of different kinds are told apart. -/
theorem kind_eq {a b : PlainValue} {r s : List Char}
    (h : json numerals a ++ r = json numerals b ++ s) : kind a = kind b := by
  obtain ⟨c, rest, ha, hkind, -⟩ := exists_cons_json numerals a
  obtain ⟨c', rest', hb, hkind', -⟩ := exists_cons_json numerals b
  rw [ha, hb, List.cons_append, List.cons_append] at h
  rw [← hkind, ← hkind', (List.cons.inj h).1]

/-- A value that is written as a word is known by its kind. -/
theorem word_of_kind {a b : PlainValue} (h : kind a = kind b) (hlow : 3 ≤ kind a)
    (hhigh : kind a ≤ 5) : json numerals a = json numerals b ∧ a.reparsed = b.reparsed := by
  have hword : ∀ value : PlainValue, 3 ≤ kind value → kind value ≤ 5 →
      value.reparsed = (if kind value = 3 then .null else .boolean (decide (kind value = 4))) := by
    intro value hlow hhigh
    match value with
    | .null | .number .nan | .number .infinity | .number .negativeInfinity => rfl
    | .boolean true | .boolean false => rfl
    | .string _ | .array _ | .object _ => simp [kind] at hlow
    | .number (.finite _) => simp [kind] at hhigh
  have hreparsed : a.reparsed = b.reparsed := by
    rw [hword a hlow hhigh, hword b (h ▸ hlow) (h ▸ hhigh), h]
  exact ⟨by rw [← json_reparsed a, hreparsed, json_reparsed], hreparsed⟩

theorem exists_string_of_kind {value : PlainValue} (h : kind value = 0) :
    ∃ text, value = .string text := by
  match value with
  | .string text => exact ⟨text, rfl⟩

theorem exists_array_of_kind {value : PlainValue} (h : kind value = 1) :
    ∃ items, value = .array items := by
  match value with
  | .array items => exact ⟨items, rfl⟩

theorem exists_object_of_kind {value : PlainValue} (h : kind value = 2) :
    ∃ fields, value = .object fields := by
  match value with
  | .object fields => exact ⟨fields, rfl⟩

theorem exists_finite_of_kind {value : PlainValue} (h : kind value = 6) :
    ∃ q, value = .number (.finite q) := by
  match value with
  | .number (.finite q) => exact ⟨q, rfl⟩

/-- No text begins with a delimiter. -/
theorem json_append_ne_cons {value : PlainValue} {c : Char} {r s : List Char}
    (hc : isDelimiter c = true) : json numerals value ++ r ≠ c :: s := by
  obtain ⟨d, rest, hvalue, -, hd⟩ := exists_cons_json numerals value
  rw [hvalue]
  intro h
  obtain rfl : d = c := (List.cons.inj h).1
  exact nomatch hd.symm.trans hc

/-- A quoted string can be read off the front of any text. -/
theorem selfDelimiting_quote : SelfDelimiting fun value : String => Json.quote (unitsOf value) := by
  intro a b r s h
  have htail : ((codePoints (unitsOf a)).flatMap Json.quoted ++ ['"']) ++ r =
      ((codePoints (unitsOf b)).flatMap Json.quoted ++ ['"']) ++ s :=
    (List.cons.inj h).2
  rw [List.append_assoc, List.append_assoc] at htail
  have hread := congrArg Json.readString htail
  rw [List.singleton_append, List.singleton_append, Json.readString_quote, Json.readString_quote,
    Option.some.injEq, Prod.mk.injEq] at hread
  exact ⟨unitsOf_injective hread.1, hread.2⟩

/-- What may stand behind a value. -/
def Ends (rest : List Char) : Prop := ∀ c ∈ rest.head?, isDelimiter c = true

theorem ends_cons {c : Char} (hc : isDelimiter c = true) (rest : List Char) : Ends (c :: rest) := by
  intro d hd
  rwa [← Option.some.inj hd]

/-- What stands behind an item or a member. -/
theorem ends_separated {empty : Bool} {others rest : List Char} (hrest : Ends rest) :
    Ends ((if empty then [] else ',' :: others) ++ rest) := by
  cases empty
  · exact ends_cons rfl _
  · exact hrest

/-- Behind the last item stands no comma. -/
theorem separated_cancel {empty empty' : Bool} {others others' r s : List Char} {c : Char}
    (hc : c ≠ ',')
    (h : (if empty then [] else ',' :: others) ++ c :: r =
      (if empty' then [] else ',' :: others') ++ c :: s) :
    empty = empty' ∧ (empty = true → r = s) ∧
      (empty = false → others ++ c :: r = others' ++ c :: s) := by
  cases empty <;> cases empty'
  · exact ⟨rfl, Bool.false_ne_true.elim, fun _ => (List.cons.inj h).2⟩
  · exact absurd (List.cons.inj h).1.symm hc
  · exact absurd (List.cons.inj h).1 hc
  · exact ⟨rfl, fun _ => (List.cons.inj h).2, Bool.noConfusion⟩

mutual

/-- A text in front of a delimiter tells what is read back of the value. -/
theorem json_append_inj : ∀ (a b : PlainValue) {r s : List Char}, Ends r → Ends s →
    json numerals a ++ r = json numerals b ++ s → a.reparsed = b.reparsed ∧ r = s
  | .string a, b, r, s, hr, hs, h => by
    obtain ⟨b, rfl⟩ : ∃ b', b = .string b' := exists_string_of_kind (kind_eq h).symm
    obtain ⟨rfl, hrs⟩ := selfDelimiting_quote h
    exact ⟨rfl, hrs⟩
  | .array as, b, r, s, hr, hs, h => by
    obtain ⟨bs, rfl⟩ : ∃ bs, b = .array bs := exists_array_of_kind (kind_eq h).symm
    have htail : (jsonItems numerals as ++ [']']) ++ r = (jsonItems numerals bs ++ [']']) ++ s :=
      (List.cons.inj h).2
    rw [List.append_assoc, List.append_assoc] at htail
    obtain ⟨hitems, hrs⟩ := jsonItems_append_inj as bs htail
    exact ⟨congrArg PlainValue.array hitems, hrs⟩
  | .object fields, b, r, s, hr, hs, h => by
    obtain ⟨others, rfl⟩ : ∃ others, b = .object others := exists_object_of_kind (kind_eq h).symm
    have htail : (jsonFields numerals fields ++ ['\x7d']) ++ r =
        (jsonFields numerals others ++ ['\x7d']) ++ s := (List.cons.inj h).2
    rw [List.append_assoc, List.append_assoc] at htail
    obtain ⟨hfields, hrs⟩ := jsonFields_append_inj fields others htail
    exact ⟨congrArg PlainValue.object hfields, hrs⟩
  | .number (.finite a), b, r, s, hr, hs, h => by
    obtain ⟨b, rfl⟩ : ∃ b', b = .number (.finite b') := exists_finite_of_kind (kind_eq h).symm
    have hplain : ∀ q, ∀ c ∈ json numerals (.number (.finite q)), ¬isDelimiter c = true := by
      intro q c hc
      exact Bool.not_eq_true _ ▸ numerals.plain q c hc
    obtain ⟨htext, hrs⟩ := append_cancel_of_forall_not (hplain a) (hplain b) hr hs h
    obtain rfl := numerals.injective (String.toList_injective htext)
    exact ⟨rfl, hrs⟩
  | .null, b, r, s, hr, hs, h | .boolean true, b, r, s, hr, hs, h
  | .boolean false, b, r, s, hr, hs, h | .number .nan, b, r, s, hr, hs, h
  | .number .infinity, b, r, s, hr, hs, h | .number .negativeInfinity, b, r, s, hr, hs, h => by
    obtain ⟨hword, hreparsed⟩ := word_of_kind (kind_eq h) (by decide) (by decide)
    rw [hword] at h
    exact ⟨hreparsed, List.append_cancel_left h⟩

theorem jsonItems_append_inj : ∀ (as bs : List PlainValue) {r s : List Char},
    jsonItems numerals as ++ ']' :: r = jsonItems numerals bs ++ ']' :: s →
    reparsedItems as = reparsedItems bs ∧ r = s
  | [], [], r, s, h => ⟨rfl, (List.cons.inj h).2⟩
  | [], b :: bs, r, s, h => by
    rw [jsonItems, jsonItems, List.append_assoc] at h
    exact absurd h.symm (json_append_ne_cons rfl)
  | a :: as, [], r, s, h => by
    rw [jsonItems, jsonItems, List.append_assoc] at h
    exact absurd h (json_append_ne_cons rfl)
  | a :: as, b :: bs, r, s, h => by
    rw [jsonItems, jsonItems, List.append_assoc, List.append_assoc] at h
    have hend : ∀ rest, Ends (']' :: rest) := ends_cons rfl
    obtain ⟨hitem, hrest⟩ := json_append_inj a b (ends_separated (hend r))
      (ends_separated (hend s)) h
    obtain ⟨hempty, hlast, hmore⟩ := separated_cancel (by decide) hrest
    cases as with
    | nil =>
      obtain rfl := List.isEmpty_iff.mp hempty.symm
      rw [reparsedItems, reparsedItems, hitem]
      exact ⟨rfl, hlast rfl⟩
    | cons a' as =>
      obtain ⟨hitems, hrs⟩ := jsonItems_append_inj (a' :: as) bs (hmore rfl)
      rw [reparsedItems, hitem, hitems]
      exact ⟨rfl, hrs⟩

theorem jsonFields_append_inj : ∀ (as bs : List (String × PlainValue)) {r s : List Char},
    jsonFields numerals as ++ '\x7d' :: r = jsonFields numerals bs ++ '\x7d' :: s →
    reparsedFields as = reparsedFields bs ∧ r = s
  | [], [], r, s, h => ⟨rfl, (List.cons.inj h).2⟩
  | [], (key, b) :: bs, r, s, h => by
    have hhead : '\x7d' = '"' := (List.cons.inj h).1
    exact absurd hhead (by decide)
  | (key, a) :: as, [], r, s, h => by
    have hhead : '"' = '\x7d' := (List.cons.inj h).1
    exact absurd hhead (by decide)
  | (key, a) :: as, (key', b) :: bs, r, s, h => by
    rw [jsonFields, jsonFields, List.append_assoc, List.append_assoc] at h
    obtain ⟨rfl, hmember⟩ := selfDelimiting_quote h
    have hvalue : (json numerals a ++ if as.isEmpty then [] else ',' :: jsonFields numerals as) ++
        '\x7d' :: r =
      (json numerals b ++ if bs.isEmpty then [] else ',' :: jsonFields numerals bs) ++
        '\x7d' :: s := (List.cons.inj hmember).2
    rw [List.append_assoc, List.append_assoc] at hvalue
    have hend : ∀ rest, Ends ('\x7d' :: rest) := ends_cons rfl
    obtain ⟨hfield, hrest⟩ := json_append_inj a b (ends_separated (hend r))
      (ends_separated (hend s)) hvalue
    obtain ⟨hempty, hlast, hmore⟩ := separated_cancel (by decide) hrest
    cases as with
    | nil =>
      obtain rfl := List.isEmpty_iff.mp hempty.symm
      rw [reparsedFields, reparsedFields, hfield]
      exact ⟨rfl, hlast rfl⟩
    | cons a' as =>
      obtain ⟨hfields, hrs⟩ := jsonFields_append_inj (a' :: as) bs (hmore rfl)
      rw [reparsedFields, hfield, hfields]
      exact ⟨rfl, hrs⟩

end

/-- Two values have the same text exactly if the same is read back. -/
theorem json_eq_iff {a b : PlainValue} :
    json numerals a = json numerals b ↔ a.reparsed = b.reparsed := by
  constructor
  · intro h
    have hnothing : Ends [] := fun c hc => nomatch hc
    exact (json_append_inj a b hnothing hnothing (congrArg (· ++ []) h)).1
  · intro h
    rw [← json_reparsed a, h, json_reparsed]

end PlainValue

end Verixa
