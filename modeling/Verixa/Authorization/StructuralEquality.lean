import Verixa.Authorization.Operators

/-!
# Equality of attribute values

Two arrays, or two records, are equal to `==` if they have the same JSON text.  A text does not tell
a date from the string it is written as, nor apart what JSON writes as `null`; and it tells apart
records that differ in the order of their keys alone.  So `==` is structural equality exactly where
none of this happens (`equality_structural_iff`).
-/

namespace Verixa.Authorization.Dsl

open Encoding

/-! ## Values as they occur -/

mutual

/-- No record has a key twice, and dates that are valid are in the range of dates. -/
def WellFormed : AttributeValue → Prop
  | .date (some time) => (Date.ofTime? time).isSome = true
  | .array items => WellFormedItems items
  | .record fields => (fields.map Prod.fst).Nodup ∧ WellFormedFields fields
  | _ => True

def WellFormedItems : List AttributeValue → Prop
  | [] => True
  | item :: items => WellFormed item ∧ WellFormedItems items

def WellFormedFields : List (String × AttributeValue) → Prop
  | [] => True
  | (_, value) :: fields => WellFormed value ∧ WellFormedFields fields

end

/-! ## Structural equality -/

mutual

/-- Equal values, with equal types at every depth.  Records are compared as maps; `NaN` and invalid
dates are equal to nothing. -/
def StructEq : AttributeValue → AttributeValue → Prop
  | .string a, .string b => a = b
  | .number a, .number b => a = b ∧ a ≠ .nan
  | .boolean a, .boolean b => a = b
  | .date a, .date b => a = b ∧ a ≠ none
  | .array items, .array others => StructEqItems items others
  | .record fields, .record others =>
    fields.length = others.length ∧ StructEqFields fields others
  | _, _ => False

def StructEqItems : List AttributeValue → List AttributeValue → Prop
  | [], [] => True
  | item :: items, other :: others => StructEq item other ∧ StructEqItems items others
  | _, _ => False

/-- The other record has every field, whatever the order. -/
def StructEqFields : List (String × AttributeValue) → List (String × AttributeValue) → Prop
  | [], _ => True
  | (key, value) :: fields, others =>
    (∃ other, OrderedMap.lookupEntry key others = some other ∧ StructEq value other) ∧
      StructEqFields fields others

end

/-! ## What the texts confuse -/

mutual

/-- The values are written alike: opposite each other stand the same keys in the same order, and
equal values, or else a date and its text, or two values that are written `null`. -/
def Alike : AttributeValue → AttributeValue → Prop
  | .string a, .string b => a = b
  | .number a, .number b => a = b ∨ a.isFinite = false ∧ b.isFinite = false
  | .boolean a, .boolean b => a = b
  | .date a, .date b => a = b
  | .string text, .date time => dateToJson time = .string text
  | .date time, .string text => dateToJson time = .string text
  | .number a, .date time => a.isFinite = false ∧ time = none
  | .date time, .number a => a.isFinite = false ∧ time = none
  | .array items, .array others => AlikeItems items others
  | .record fields, .record others => AlikeFields fields others
  | _, _ => False

def AlikeItems : List AttributeValue → List AttributeValue → Prop
  | [], [] => True
  | item :: items, other :: others => Alike item other ∧ AlikeItems items others
  | _, _ => False

def AlikeFields : List (String × AttributeValue) → List (String × AttributeValue) → Prop
  | [], [] => True
  | (key, value) :: fields, (key', other) :: others =>
    key = key' ∧ Alike value other ∧ AlikeFields fields others
  | _, _ => False

end

mutual

/-- Opposite each other stand no date and no string, and no two of `NaN`, the infinities and invalid
dates, except the same infinity twice. -/
def Clear : AttributeValue → AttributeValue → Prop
  | .string _, .date _ | .date _, .string _ => False
  | .number a, .number b => a.isFinite = true ∨ b.isFinite = true ∨ a = b ∧ a ≠ .nan
  | .number a, .date time => a.isFinite = true ∨ time ≠ none
  | .date time, .number a => a.isFinite = true ∨ time ≠ none
  | .date a, .date b => a ≠ none ∨ b ≠ none
  | .array items, .array others => ClearItems items others
  | .record fields, .record others => ClearFields fields others
  | _, _ => True

def ClearItems : List AttributeValue → List AttributeValue → Prop
  | item :: items, other :: others => Clear item other ∧ ClearItems items others
  | _, _ => True

def ClearFields : List (String × AttributeValue) → List (String × AttributeValue) → Prop
  | (_, value) :: fields, (_, other) :: others => Clear value other ∧ ClearFields fields others
  | _, _ => True

end

mutual

/-- Records that stand opposite each other list the same keys in the same order. -/
def SameOrder : AttributeValue → AttributeValue → Prop
  | .array items, .array others => SameOrderItems items others
  | .record fields, .record others =>
    fields.map Prod.fst = others.map Prod.fst ∧ SameOrderFields fields others
  | _, _ => True

def SameOrderItems : List AttributeValue → List AttributeValue → Prop
  | item :: items, other :: others => SameOrder item other ∧ SameOrderItems items others
  | _, _ => True

def SameOrderFields : List (String × AttributeValue) → List (String × AttributeValue) → Prop
  | (_, value) :: fields, (_, other) :: others =>
    SameOrder value other ∧ SameOrderFields fields others
  | _, _ => True

end

/-! ## The same text -/

theorem dateToJson_eq (time : Option ℤ) :
    dateToJson time = .null ∨ ∃ text, dateToJson time = .string text := by
  rw [dateToJson]
  cases time.bind Date.ofTime? with
  | none => exact .inl rfl
  | some date => exact .inr ⟨date.toISOString, rfl⟩

theorem reparsed_dateToJson (time : Option ℤ) : (dateToJson time).reparsed = dateToJson time := by
  rcases dateToJson_eq time with h | ⟨text, h⟩ <;> rw [h] <;> rfl

/-- A valid date has a text. -/
theorem dateToJson_ne_null {time : ℤ} (h : WellFormed (.date (some time))) :
    dateToJson (some time) ≠ .null := by
  obtain ⟨date, hdate⟩ := Option.isSome_iff_exists.mp h
  rw [dateToJson, Option.bind_some, hdate]
  rintro ⟨⟩

/-- An invalid date is written `null`, and no valid one is. -/
theorem dateToJson_eq_null_iff {time : Option ℤ} (h : WellFormed (.date time)) :
    dateToJson time = .null ↔ time = none := by
  cases time with
  | none => exact iff_of_true rfl rfl
  | some time => exact iff_of_false (dateToJson_ne_null h) (by rintro ⟨⟩)

theorem time_of_ofTime? {time : ℤ} {date : Date} (h : Date.ofTime? time = some date) :
    date.time = time := by
  unfold Date.ofTime? at h
  split at h
  · rw [← Option.some.inj h]
  · cases h

/-- Dates are told apart by their texts. -/
theorem dateToJson_inj {a b : Option ℤ} (ha : WellFormed (.date a)) (hb : WellFormed (.date b)) :
    dateToJson a = dateToJson b ↔ a = b := by
  constructor
  · intro h
    cases a with
    | none => exact ((dateToJson_eq_null_iff hb).mp h.symm).symm
    | some time =>
      cases b with
      | none => exact (dateToJson_eq_null_iff ha).mp h
      | some time' =>
        obtain ⟨date, hdate⟩ := Option.isSome_iff_exists.mp ha
        obtain ⟨date', hdate'⟩ := Option.isSome_iff_exists.mp hb
        rw [dateToJson, dateToJson, Option.bind_some, Option.bind_some, hdate, hdate'] at h
        obtain rfl := Date.toISOString_injective (PlainValue.string.inj h)
        rw [← time_of_ofTime? hdate, ← time_of_ofTime? hdate']
  · rintro rfl
    rfl

/-- A number is written `null` unless it is finite. -/
theorem reparsed_number (a : Number) :
    (PlainValue.number a).reparsed = if a.isFinite = true then .number a else .null := by
  cases a <;> rfl

theorem reparsed_number_eq_iff {a b : Number} :
    (PlainValue.number a).reparsed = (PlainValue.number b).reparsed ↔
      a = b ∨ a.isFinite = false ∧ b.isFinite = false := by
  cases a <;> cases b <;> simp [PlainValue.reparsed, Number.isFinite]

theorem reparsed_number_eq_date_iff {a : Number} {time : Option ℤ} (h : WellFormed (.date time)) :
    (PlainValue.number a).reparsed = dateToJson time ↔ a.isFinite = false ∧ time = none := by
  rw [← dateToJson_eq_null_iff h]
  cases a with
  | finite q =>
    rcases dateToJson_eq time with hnull | ⟨text, htext⟩
    · simp [hnull, PlainValue.reparsed, Number.isFinite]
    · simp [htext, PlainValue.reparsed, Number.isFinite]
  | _ =>
    rw [eq_comm]
    simp [PlainValue.reparsed, Number.isFinite]

mutual

/-- Values are written alike exactly if the same is read back of them. -/
theorem alike_iff : ∀ a b : AttributeValue, WellFormed a → WellFormed b →
    (Alike a b ↔ (toJson a).reparsed = (toJson b).reparsed)
  | .string a, b, _, hb => by
    cases b with
    | date time =>
      rw [Alike, toJson, toJson, reparsed_dateToJson, eq_comm]
      rfl
    | number b => cases b <;> simp [Alike, toJson, PlainValue.reparsed]
    | _ => simp [Alike, toJson, PlainValue.reparsed]
  | .number a, b, _, hb => by
    cases b with
    | number b => exact reparsed_number_eq_iff.symm
    | date time =>
      rw [Alike, toJson, toJson, reparsed_dateToJson]
      exact (reparsed_number_eq_date_iff hb).symm
    | _ => cases a <;> simp [Alike, toJson, PlainValue.reparsed]
  | .boolean a, b, _, hb => by
    cases b with
    | date time =>
      rcases dateToJson_eq time with h | ⟨text, h⟩ <;>
        simp [h, Alike, toJson, PlainValue.reparsed]
    | number b => cases b <;> simp [Alike, toJson, PlainValue.reparsed]
    | _ => simp [Alike, toJson, PlainValue.reparsed]
  | .date a, b, ha, hb => by
    rw [toJson, reparsed_dateToJson]
    cases b with
    | string text => rfl
    | number b =>
      rw [Alike, toJson]
      exact (reparsed_number_eq_date_iff ha).symm.trans eq_comm
    | date b =>
      rw [Alike, toJson, reparsed_dateToJson]
      exact (dateToJson_inj ha hb).symm
    | _ =>
      rcases dateToJson_eq a with h | ⟨text, h⟩ <;> simp [h, Alike, toJson, PlainValue.reparsed]
  | .array items, b, ha, hb => by
    cases b with
    | array others =>
      rw [Alike, toJson, toJson, PlainValue.reparsed, PlainValue.reparsed, PlainValue.array.injEq]
      exact alikeItems_iff items others ha hb
    | date time =>
      rcases dateToJson_eq time with h | ⟨text, h⟩ <;>
        simp [h, Alike, toJson, PlainValue.reparsed]
    | number b => cases b <;> simp [Alike, toJson, PlainValue.reparsed]
    | _ => simp [Alike, toJson, PlainValue.reparsed]
  | .record fields, b, ha, hb => by
    cases b with
    | record others =>
      rw [Alike, toJson, toJson, PlainValue.reparsed, PlainValue.reparsed, PlainValue.object.injEq]
      exact alikeFields_iff fields others ha.2 hb.2
    | date time =>
      rcases dateToJson_eq time with h | ⟨text, h⟩ <;>
        simp [h, Alike, toJson, PlainValue.reparsed]
    | number b => cases b <;> simp [Alike, toJson, PlainValue.reparsed]
    | _ => simp [Alike, toJson, PlainValue.reparsed]

theorem alikeItems_iff : ∀ items others : List AttributeValue, WellFormedItems items →
    WellFormedItems others → (AlikeItems items others ↔
      PlainValue.reparsedItems (toJsonItems items) = PlainValue.reparsedItems (toJsonItems others))
  | [], [], _, _ => iff_of_true trivial rfl
  | [], _ :: _, _, _ => iff_of_false (fun h => h) (by rintro ⟨⟩)
  | _ :: _, [], _, _ => iff_of_false (fun h => h) (by rintro ⟨⟩)
  | item :: items, other :: others, h, h' => by
    rw [AlikeItems, toJsonItems, toJsonItems, PlainValue.reparsedItems, PlainValue.reparsedItems,
      List.cons.injEq]
    exact and_congr (alike_iff item other h.1 h'.1) (alikeItems_iff items others h.2 h'.2)

theorem alikeFields_iff : ∀ fields others : List (String × AttributeValue),
    WellFormedFields fields → WellFormedFields others → (AlikeFields fields others ↔
      PlainValue.reparsedFields (toJsonFields fields) =
        PlainValue.reparsedFields (toJsonFields others))
  | [], [], _, _ => iff_of_true trivial rfl
  | [], _ :: _, _, _ => iff_of_false (fun h => h) (by rintro ⟨⟩)
  | _ :: _, [], _, _ => iff_of_false (fun h => h) (by rintro ⟨⟩)
  | (key, value) :: fields, (key', other) :: others, h, h' => by
    rw [AlikeFields, toJsonFields, toJsonFields, PlainValue.reparsedFields,
      PlainValue.reparsedFields, List.cons.injEq, Prod.mk.injEq, and_assoc]
    exact and_congr Iff.rfl
      (and_congr (alike_iff value other h.1 h'.1) (alikeFields_iff fields others h.2 h'.2))

end

/-! ## Records with the same keys in the same order -/

theorem keys_eq_of_alikeFields : ∀ {fields others : List (String × AttributeValue)},
    AlikeFields fields others → fields.map Prod.fst = others.map Prod.fst
  | [], [], _ => rfl
  | (_, _) :: _, (_, _) :: _, h => by
    rw [List.map_cons, List.map_cons, h.1, keys_eq_of_alikeFields h.2.2]

/-- What stands opposite the fields, by the order alone. -/
def Opposite (fields others : List (String × AttributeValue)) : Prop :=
  List.Forall₂ (fun field other => StructEq field.2 other.2) fields others

/-- Under the same keys in the same order, equality as maps is equality of what stands opposite; by
induction, with the fields `done` of the other record in front. -/
theorem structEqFields_append_iff : ∀ {fields others done : List (String × AttributeValue)},
    fields.map Prod.fst = others.map Prod.fst → ((done ++ others).map Prod.fst).Nodup →
    (StructEqFields fields (done ++ others) ↔ Opposite fields others)
  | [], [], _, _, _ => iff_of_true trivial .nil
  | (key, value) :: fields, (key', other) :: others, done, hkeys, hnodup => by
    obtain ⟨rfl, hrest⟩ : key = key' ∧ _ := List.cons.inj hkeys
    have hlookup : OrderedMap.lookupEntry key (done ++ (key, other) :: others) = some other :=
      (OrderedMap.lookupEntry_eq_some_iff hnodup).mpr (by simp)
    have hshift : done ++ (key, other) :: others = (done ++ [(key, other)]) ++ others := by simp
    have hfields := structEqFields_append_iff hrest (hshift ▸ hnodup)
    rw [Opposite, List.forall₂_cons, StructEqFields, hlookup, hshift, hfields]
    simp [Opposite]

theorem structEqFields_iff {fields others : List (String × AttributeValue)}
    (hkeys : fields.map Prod.fst = others.map Prod.fst) (hnodup : (others.map Prod.fst).Nodup) :
    StructEq (.record fields) (.record others) ↔ Opposite fields others := by
  have hlength : fields.length = others.length := by
    simpa using congrArg List.length hkeys
  rw [StructEq, ← @structEqFields_append_iff fields others [] hkeys hnodup, List.nil_append]
  exact and_iff_right hlength

/-! ## What is written alike -/

mutual

/-- Of values that are written alike, those are equal that cannot be confused. -/
theorem structEq_iff_of_alike : ∀ a b : AttributeValue, WellFormed a → WellFormed b → Alike a b →
    (StructEq a b ↔ Clear a b)
  | .string a, b, _, _, h => by
    cases b <;> simp_all [Alike, StructEq, Clear]
  | .number a, b, _, _, h => by
    cases b with
    | number b =>
      rcases h with rfl | ⟨ha, hb⟩
      · cases a <;> simp [StructEq, Clear, Number.isFinite]
      · simp [StructEq, Clear, ha, hb]
    | date time => simp_all [Alike, StructEq, Clear]
    | _ => exact h.elim
  | .boolean a, b, _, _, h => by
    cases b <;> simp_all [Alike, StructEq, Clear]
  | .date a, b, _, _, h => by
    cases b <;> simp_all [Alike, StructEq, Clear]
  | .array items, b, ha, hb, h => by
    cases b with
    | array others => exact structEqItems_iff_of_alike items others ha hb h
    | _ => exact h.elim
  | .record fields, b, ha, hb, h => by
    cases b with
    | record others =>
      rw [structEqFields_iff (keys_eq_of_alikeFields h) hb.1]
      exact opposite_iff_of_alike fields others ha.2 hb.2 h
    | _ => exact h.elim

theorem structEqItems_iff_of_alike : ∀ items others : List AttributeValue, WellFormedItems items →
    WellFormedItems others → AlikeItems items others →
    (StructEqItems items others ↔ ClearItems items others)
  | [], [], _, _, _ => iff_of_true trivial trivial
  | item :: items, other :: others, h, h', halike =>
    and_congr (structEq_iff_of_alike item other h.1 h'.1 halike.1)
      (structEqItems_iff_of_alike items others h.2 h'.2 halike.2)

theorem opposite_iff_of_alike : ∀ fields others : List (String × AttributeValue),
    WellFormedFields fields → WellFormedFields others → AlikeFields fields others →
    (Opposite fields others ↔ ClearFields fields others)
  | [], [], _, _, _ => iff_of_true .nil trivial
  | (_, value) :: fields, (_, other) :: others, h, h', halike => by
    rw [Opposite, List.forall₂_cons, ClearFields]
    exact and_congr (structEq_iff_of_alike value other h.1 h'.1 halike.2.1)
      (opposite_iff_of_alike fields others h.2 h'.2 halike.2.2)

end

mutual

/-- Of equal values, those are written alike whose records list their keys in the same order. -/
theorem alike_iff_of_structEq : ∀ a b : AttributeValue, WellFormed a → WellFormed b →
    StructEq a b → (Alike a b ↔ SameOrder a b)
  | .string a, b, _, _, h => by
    cases b <;> simp_all [Alike, StructEq, SameOrder]
  | .number a, b, _, _, h => by
    cases b <;> simp_all [Alike, StructEq, SameOrder]
  | .boolean a, b, _, _, h => by
    cases b <;> simp_all [Alike, StructEq, SameOrder]
  | .date a, b, _, _, h => by
    cases b <;> simp_all [Alike, StructEq, SameOrder]
  | .array items, b, ha, hb, h => by
    cases b with
    | array others => exact alikeItems_iff_of_structEq items others ha hb h
    | _ => exact h.elim
  | .record fields, b, ha, hb, h => by
    cases b with
    | record others =>
      rw [Alike, SameOrder]
      constructor
      · intro halike
        have hkeys := keys_eq_of_alikeFields halike
        have hopposite := (structEqFields_iff hkeys hb.1).mp h
        exact ⟨hkeys, (alikeFields_iff_of_opposite fields others hkeys ha.2 hb.2 hopposite).mp
          halike⟩
      · rintro ⟨hkeys, horder⟩
        have hopposite := (structEqFields_iff hkeys hb.1).mp h
        exact (alikeFields_iff_of_opposite fields others hkeys ha.2 hb.2 hopposite).mpr horder
    | _ => exact h.elim

theorem alikeItems_iff_of_structEq : ∀ items others : List AttributeValue, WellFormedItems items →
    WellFormedItems others → StructEqItems items others →
    (AlikeItems items others ↔ SameOrderItems items others)
  | [], [], _, _, _ => iff_of_true trivial trivial
  | item :: items, other :: others, h, h', hequal =>
    and_congr (alike_iff_of_structEq item other h.1 h'.1 hequal.1)
      (alikeItems_iff_of_structEq items others h.2 h'.2 hequal.2)

theorem alikeFields_iff_of_opposite : ∀ fields others : List (String × AttributeValue),
    fields.map Prod.fst = others.map Prod.fst → WellFormedFields fields →
    WellFormedFields others → Opposite fields others →
    (AlikeFields fields others ↔ SameOrderFields fields others)
  | [], [], _, _, _, _ => iff_of_true trivial trivial
  | (key, value) :: fields, (key', other) :: others, hkeys, h, h', hopposite => by
    obtain ⟨rfl, hrest⟩ : key = key' ∧ _ := List.cons.inj hkeys
    obtain ⟨hvalue, hfields⟩ := List.forall₂_cons.mp hopposite
    rw [AlikeFields, SameOrderFields, and_iff_right rfl]
    exact and_congr (alike_iff_of_structEq value other h.1 h'.1 hvalue)
      (alikeFields_iff_of_opposite fields others hrest h.2 h'.2 hfields)

end

/-! ## The operators -/

/-- The value is an array or a record. -/
def isCollection : AttributeValue → Bool
  | .array _ | .record _ => true
  | _ => false

/-- Collections are equal to `==` if they are written alike. -/
theorem sameTypedValue_of_collection (numerals : Numerals) {a b : AttributeValue}
    (hcollection : isCollection a = true) (ha : WellFormed a) (hb : WellFormed b) :
    sameTypedValue numerals a b = true ↔ Alike a b := by
  have htexts : stringify numerals a = stringify numerals b ↔ Alike a b := by
    rw [stringify, stringify, PlainValue.json_eq_iff, alike_iff a b ha hb]
  cases a with
  | array items =>
    cases b with
    | array others => simp [sameTypedValue, typeOf, isArray, htexts]
    | _ => simp [sameTypedValue, typeOf, isArray, Alike]
  | record fields =>
    cases b with
    | record others => simp [sameTypedValue, typeOf, isArray, htexts]
    | date time => simp [sameTypedValue, typeOf, isArray, htexts]
    | _ => simp [sameTypedValue, typeOf, isArray, Alike]
  | _ => cases hcollection

/-- A date is equal to no array and to no record. -/
theorem stringify_date_ne (numerals : Numerals) (time : Option ℤ)
    (fields : List (String × AttributeValue)) :
    stringify numerals (.date time) ≠ stringify numerals (.record fields) := by
  rw [stringify, stringify, Ne, PlainValue.json_eq_iff, toJson, toJson, reparsed_dateToJson]
  rcases dateToJson_eq time with h | ⟨text, h⟩ <;> rw [h] <;> rintro ⟨⟩

/-- Other values are equal to `==` if they are equal. -/
theorem sameTypedValue_of_scalar (numerals : Numerals) {a b : AttributeValue}
    (hscalar : isCollection a = false) : sameTypedValue numerals a b = true ↔ StructEq a b := by
  cases a with
  | string a => cases b <;> simp [sameTypedValue, typeOf, isArray, identical, StructEq]
  | number a =>
    cases b <;> simp [sameTypedValue, typeOf, isArray, identical, StructEq, Number.strictEq_iff]
  | boolean a => cases b <;> simp [sameTypedValue, typeOf, isArray, identical, StructEq]
  | date a =>
    cases b with
    | date b =>
      cases a <;> cases b <;>
        simp [sameTypedValue, getTime, Number.strictEq, StructEq, typeOf]
    | record fields =>
      simp [sameTypedValue, typeOf, isArray, StructEq, stringify_date_ne numerals a fields]
    | _ => simp [sameTypedValue, typeOf, isArray, StructEq]
  | _ => cases hscalar

/-- `evaluateOperator("==", a, b)` is true. -/
def Equals (host : Host) (a b : AttributeValue) : Prop :=
  evaluateOperator host .equal (some a) (some b) = .success true

theorem equals_iff {host : Host} {a b : AttributeValue} :
    Equals host a b ↔ sameTypedValue host.numerals a b = true := by
  rw [Equals, evaluateOperator, OperatorResult.success.injEq]

/-- What is claimed of the operators at two values. -/
structure EqualityLaw (host : Host) (a b : AttributeValue) : Prop where
  equal : Equals host a b ↔ StructEq a b
  complement : ∃ value, evaluateOperator host .equal (some a) (some b) = .success value ∧
    evaluateOperator host .notEqual (some a) (some b) = .success (!value)
  member : ∀ items, b = .array items →
    ∃ value, evaluateOperator host .in (some a) (some b) = .success value ∧
      (value = true ↔ ∃ item ∈ items, Equals host a item)
  contains : ∀ items, a = .array items →
    ∃ value, evaluateOperator host .contains (some a) (some b) = .success value ∧
      (value = true ↔ ∃ item ∈ items, Equals host item b)

/-- All but the first law hold by the way the operators are made. -/
theorem equalityLaw_iff {host : Host} {a b : AttributeValue} :
    EqualityLaw host a b ↔ (Equals host a b ↔ StructEq a b) := by
  refine ⟨EqualityLaw.equal, fun hequal => ⟨hequal, ⟨_, rfl, rfl⟩, ?_, ?_⟩⟩
  · rintro items rfl
    refine ⟨_, rfl, ?_⟩
    simp only [List.any_eq_true, equals_iff]
  · rintro items rfl
    refine ⟨_, rfl, ?_⟩
    simp only [List.any_eq_true, equals_iff]

/-- Nothing in two collections is confused by their texts, and no order of keys tells them apart. -/
def TextsTell (a b : AttributeValue) : Prop :=
  isCollection a = true → (Alike a b → Clear a b) ∧ (StructEq a b → SameOrder a b)

theorem equals_structEq_iff (host : Host) {a b : AttributeValue} (ha : WellFormed a)
    (hb : WellFormed b) : (Equals host a b ↔ StructEq a b) ↔ TextsTell a b := by
  rw [equals_iff]
  cases hcollection : isCollection a with
  | false =>
    apply iff_of_true (sameTypedValue_of_scalar host.numerals hcollection)
    intro h
    cases hcollection.symm.trans h
  | true =>
    have hclear : (Alike a b → StructEq a b) ↔ (Alike a b → Clear a b) :=
      forall_congr' fun halike => structEq_iff_of_alike a b ha hb halike
    have horder : (StructEq a b → Alike a b) ↔ (StructEq a b → SameOrder a b) :=
      forall_congr' fun hequal => alike_iff_of_structEq a b ha hb hequal
    rw [sameTypedValue_of_collection host.numerals hcollection ha hb, TextsTell,
      forall_prop_of_true hcollection, ← hclear, ← horder]
    exact iff_def

/-- Equality of the operators is typed structural equality exactly if two collections that are
written alike have no date opposite a string, and no two opposite values that are written `null`
save one infinity twice, and equal ones list the keys of their records in the same order. -/
theorem equality_structural_iff (host : Host) {a b : AttributeValue} (ha : WellFormed a)
    (hb : WellFormed b) : EqualityLaw host a b ↔ TextsTell a b :=
  equalityLaw_iff.trans (equals_structEq_iff host ha hb)

/-- A host without regular expressions. -/
def sampleHost : Host where
  numerals := quotients
  regExpTest _ _ := none

/-- Two records of which one field differs. -/
theorem equality_structural_iff_sample :
    let role : String × AttributeValue := ("role", .string "admin")
    let a : AttributeValue := .record [role, ("level", .number (.finite 2))]
    let b : AttributeValue := .record [role, ("level", .number (.finite 3))]
    WellFormed a ∧ WellFormed b ∧ (EqualityLaw sampleHost a b ↔ TextsTell a b) :=
  have hfields (level : ℚ) : WellFormed
      (.record [("role", .string "admin"), ("level", .number (.finite level))]) :=
    ⟨by simp, trivial, trivial, trivial⟩
  ⟨hfields 2, hfields 3, equality_structural_iff sampleHost (hfields 2) (hfields 3)⟩

/-- An array of a date equals the array of its text, which is of another type. -/
theorem date_equals_text : ¬∀ (host : Host) (a b : AttributeValue),
    WellFormed a → WellFormed b → EqualityLaw host a b := by
  intro h
  let a : AttributeValue := .array [.date (some 0)]
  let b : AttributeValue := .array [.string "1970-01-01T00:00:00.000Z"]
  have ha : WellFormed a := ⟨rfl, trivial⟩
  have hb : WellFormed b := ⟨trivial, trivial⟩
  have htext : (⟨0, by decide⟩ : Date).toISOString = "1970-01-01T00:00:00.000Z" := by decide
  have halike : Alike a b := ⟨congrArg PlainValue.string htext, trivial⟩
  have hequals : Equals sampleHost a b :=
    equals_iff.mpr ((sameTypedValue_of_collection quotients rfl ha hb).mpr halike)
  exact ((h sampleHost a b ha hb).equal.mp hequals).1

/-- The order of the keys tells apart what is equal, and `null` is written for unequal values. -/
example :
    ¬Alike (.record [("a", .boolean true), ("b", .boolean true)])
        (.record [("b", .boolean true), ("a", .boolean true)]) ∧
      Alike (.array [.number .nan]) (.array [.number .infinity]) :=
  ⟨fun h => absurd h.1 (by decide), ⟨.inr ⟨rfl, rfl⟩, trivial⟩⟩

/-! ## Values that compare with any other -/

mutual

/-- There are only booleans, finite numbers and strings that are no texts of dates in the value, and
records of one key at most. -/
def Told : AttributeValue → Prop
  | .string text => ∀ time, dateToJson time ≠ .string text
  | .number a => a.isFinite = true
  | .boolean _ => True
  | .date _ => False
  | .array items => ToldItems items
  | .record fields => fields.length ≤ 1 ∧ ToldFields fields

def ToldItems : List AttributeValue → Prop
  | [] => True
  | item :: items => Told item ∧ ToldItems items

def ToldFields : List (String × AttributeValue) → Prop
  | [] => True
  | (_, value) :: fields => Told value ∧ ToldFields fields

end

mutual

theorem clear_of_told : ∀ a b : AttributeValue, Told a → Alike a b → Clear a b
  | .string text, b, ha, h => by
    cases b with
    | date time => exact ha time h
    | _ => trivial
  | .number a, b, ha, h => by
    cases b with
    | number b => exact .inl ha
    | date time => exact .inl ha
    | _ => trivial
  | .boolean a, b, ha, h => by
    cases b <;> trivial
  | .array items, b, ha, h => by
    cases b with
    | array others => exact clearItems_of_told items others ha h
    | _ => trivial
  | .record fields, b, ha, h => by
    cases b with
    | record others => exact clearFields_of_told fields others ha.2 h
    | _ => trivial

theorem clearItems_of_told : ∀ items others : List AttributeValue, ToldItems items →
    AlikeItems items others → ClearItems items others
  | [], [], _, _ => trivial
  | item :: items, other :: others, ha, h =>
    ⟨clear_of_told item other ha.1 h.1, clearItems_of_told items others ha.2 h.2⟩

theorem clearFields_of_told : ∀ fields others : List (String × AttributeValue), ToldFields fields →
    AlikeFields fields others → ClearFields fields others
  | [], [], _, _ => trivial
  | (_, value) :: fields, (_, other) :: others, ha, h =>
    ⟨clear_of_told value other ha.1 h.2.1, clearFields_of_told fields others ha.2 h.2.2⟩

end

mutual

theorem sameOrder_of_told : ∀ a b : AttributeValue, Told a → StructEq a b → SameOrder a b
  | .string _, b, _, _ | .number _, b, _, _ | .boolean _, b, _, _ => by
    cases b <;> trivial
  | .array items, b, ha, h => by
    cases b with
    | array others => exact sameOrderItems_of_told items others ha h
    | _ => trivial
  | .record [], b, ha, h => by
    cases b with
    | record others =>
      obtain rfl := List.length_eq_zero_iff.mp h.1.symm
      exact ⟨rfl, trivial⟩
    | _ => trivial
  | .record [(key, value)], b, ha, h => by
    cases b with
    | record others =>
      obtain ⟨⟨key', other⟩, rfl⟩ := List.length_eq_one_iff.mp h.1.symm
      obtain ⟨other', hlookup, hequal⟩ := h.2.1
      rw [OrderedMap.lookupEntry] at hlookup
      split at hlookup
      · rename_i hkey
        obtain rfl := Option.some.inj hlookup
        exact ⟨congrArg (fun key => [key]) hkey.symm, sameOrder_of_told value other ha.2.1 hequal,
          trivial⟩
      · cases hlookup
    | _ => trivial
  | .record (_ :: _ :: fields), b, ha, h => by
    have hlength : fields.length + 1 + 1 ≤ 1 := ha.1
    omega

theorem sameOrderItems_of_told : ∀ items others : List AttributeValue, ToldItems items →
    StructEqItems items others → SameOrderItems items others
  | [], [], _, _ => trivial
  | item :: items, other :: others, ha, h =>
    ⟨sameOrder_of_told item other ha.1 h.1, sameOrderItems_of_told items others ha.2 h.2⟩

end

/-- Such a value compares with every other as it should. -/
theorem equals_iff_of_told (host : Host) {a b : AttributeValue} (ha : WellFormed a)
    (hb : WellFormed b) (htold : Told a) : Equals host a b ↔ StructEq a b := by
  apply (equals_structEq_iff host ha hb).mpr
  intro _
  exact ⟨clear_of_told a b htold, sameOrder_of_told a b htold⟩

end Verixa.Authorization.Dsl
