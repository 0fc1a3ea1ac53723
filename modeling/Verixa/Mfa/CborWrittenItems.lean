import Verixa.Mfa.CborReaderFidelity

/-!
# The items that the encoder writes

What the encoder writes for a value is an item, with every argument in the fewest bytes
(`encoded_eq_toBytes`).  Integers and lengths from 2^32 on lose their high bytes: the item of such a
value counts something else or denotes another integer.
-/

namespace Verixa.Mfa.Cbor

open Encoding CborItem

mutual

/-- The item that is written for a value without bigints. -/
def itemOf : CborValue → CborItem
  | .number value =>
    if 0 ≤ value then .unsigned (fewest value.toNat)
    else .negative (fewest (toNumber (-1 - value).toNat))
  | .bigint _ => .special (fewest 23)
  | .bytes value => .bytes (fewest value.length) value
  | .text value => .text (fewest (utf8 value).length) (utf8 value)
  | .array items => .array (fewest items.length) (itemsOf items)
  | .map entries => .map (fewest entries.length) (entriesOf entries)
  | .boolean false => .special (fewest 20)
  | .boolean true => .special (fewest 21)
  | .null => .special (fewest 22)
  | .undefined => .special (fewest 23)

/-- Items. -/
def itemsOf : List CborValue → List CborItem
  | [] => []
  | item :: items => itemOf item :: itemsOf items

/-- Entries. -/
def entriesOf : List (CborValue × CborValue) → List (CborItem × CborItem)
  | [] => []
  | (key, value) :: entries => (itemOf key, itemOf value) :: entriesOf entries

end

theorem length_itemsOf (items : List CborValue) : (itemsOf items).length = items.length := by
  induction items with
  | nil => rfl
  | cons item items ih => rw [itemsOf, List.length_cons, ih, List.length_cons]

theorem length_entriesOf (entries : List (CborValue × CborValue)) :
    (entriesOf entries).length = entries.length := by
  induction entries with
  | nil => rfl
  | cons entry entries ih => rw [entriesOf, List.length_cons, ih, List.length_cons]

/-- A byte keeps the low bits of a number only. -/
theorem ofNat_mod (n : ℕ) : UInt8.ofNat (n % 256) = UInt8.ofNat n := by
  apply UInt8.toNat_inj.mp
  rw [UInt8.toNat_ofNat', UInt8.toNat_ofNat']
  omega

/-- `writeUint` writes a head with the argument in the fewest bytes. -/
theorem writeUint_eq_head (majorType num : ℕ) :
    writeUint majorType num = head majorType (fewest num) := by
  unfold writeUint fewest head
  dsimp only
  split
  · rfl
  · split
    · simp [toBigEndian]
    · split
      · simp [toBigEndian, ofNat_mod]
      · simp [toBigEndian, ofNat_mod]

mutual

/-- What is written for a value is its item. -/
theorem encoded_eq_toBytes : ∀ value : CborValue, Every NoBigint value →
    encoded value = toBytes (itemOf value)
  | .number value, _ => by
    rw [encoded, writeInteger, itemOf]
    split
    · exact writeUint_eq_head 0 _
    · exact writeUint_eq_head 1 _
  | .bigint value, h => absurd h id
  | .bytes value, _ => by
    rw [encoded, writeUint_eq_head]
    rfl
  | .text value, _ => by
    rw [encoded, writeText, writeUint_eq_head]
    rfl
  | .array items, h => by
    rw [encoded, writeUint_eq_head, encodedItems_eq_toBytes items h.2, itemOf, toBytes]
  | .map entries, h => by
    rw [encoded, writeUint_eq_head, encodedEntries_eq_toBytes entries h.2, itemOf, toBytes]
  | .boolean false, _ => rfl
  | .boolean true, _ => rfl
  | .null, _ => rfl
  | .undefined, _ => rfl

theorem encodedItems_eq_toBytes : ∀ items : List CborValue, EveryItem NoBigint items →
    encodedItems items = itemsToBytes (itemsOf items)
  | [], _ => rfl
  | item :: items, h => by
    rw [encodedItems, encoded_eq_toBytes item h.1, encodedItems_eq_toBytes items h.2, itemsOf,
      itemsToBytes]

theorem encodedEntries_eq_toBytes : ∀ entries : List (CborValue × CborValue),
    EveryEntry NoBigint entries → encodedEntries entries = entriesToBytes (entriesOf entries)
  | [], _ => rfl
  | (key, value) :: entries, h => by
    rw [encodedEntries, encoded_eq_toBytes key h.1, encoded_eq_toBytes value h.2.1,
      encodedEntries_eq_toBytes entries h.2.2, entriesOf, entriesToBytes]

end

/-! ## Lengths -/

/-- A part whose length fits four bytes. -/
def LengthFits : CborValue → Prop
  | .text value => (utf8 value).length < 2 ^ 32
  | .bytes value => value.length < 2 ^ 32
  | .array items => items.length < 2 ^ 32
  | .map entries => entries.length < 2 ^ 32
  | .number _ | .bigint _ | .boolean _ | .null | .undefined => True

/-- A number below 2^32 is the value of its argument. -/
theorem value_fewest_of_lt {n : ℕ} (h : n < 2 ^ 32) : (fewest n).value = n := by
  rw [value_fewest, Nat.mod_eq_of_lt h]

mutual

/-- Lengths that fit are counted as they are. -/
theorem counted_itemOf : ∀ value : CborValue, Every LengthFits value → Counted (itemOf value)
  | .number value, _ => by
    rw [itemOf]
    split <;> trivial
  | .bytes value, h => value_fewest_of_lt h
  | .text value, h => value_fewest_of_lt h
  | .array items, h =>
    ⟨(value_fewest_of_lt h.1).trans (length_itemsOf items).symm, counted_itemsOf items h.2⟩
  | .map entries, h =>
    ⟨(value_fewest_of_lt h.1).trans (length_entriesOf entries).symm,
      counted_entriesOf entries h.2⟩
  | .boolean false, _ | .boolean true, _ | .bigint _, _ | .null, _ | .undefined, _ => trivial

theorem counted_itemsOf :
    ∀ items : List CborValue, EveryItem LengthFits items → CountedItems (itemsOf items)
  | [], _ => trivial
  | item :: items, h => ⟨counted_itemOf item h.1, counted_itemsOf items h.2⟩

theorem counted_entriesOf : ∀ entries : List (CborValue × CborValue),
    EveryEntry LengthFits entries → CountedEntries (entriesOf entries)
  | [], _ => trivial
  | (key, value) :: entries, h =>
    ⟨counted_itemOf key h.1, counted_itemOf value h.2.1, counted_entriesOf entries h.2.2⟩

end

mutual

/-- An item is nested as deeply as its value. -/
theorem depth_itemOf : ∀ value : CborValue, (itemOf value).depth = depth value
  | .number value => by
    rw [itemOf]
    split <;> rfl
  | .array items => congrArg (· + 1) (depth_itemsOf items)
  | .map entries => congrArg (· + 1) (depth_entriesOf entries)
  | .boolean false | .boolean true | .bigint _ | .bytes _ | .text _ | .null | .undefined => rfl

theorem depth_itemsOf :
    ∀ items : List CborValue, CborItem.depthItems (itemsOf items) = depthItems items
  | [] => rfl
  | item :: items => by
    rw [itemsOf, CborItem.depthItems, depthItems, depth_itemOf item, depth_itemsOf items]

theorem depth_entriesOf : ∀ entries : List (CborValue × CborValue),
    CborItem.depthEntries (entriesOf entries) = depthEntries entries
  | [] => rfl
  | (key, value) :: entries => by
    rw [entriesOf, CborItem.depthEntries, depthEntries, depth_itemOf key, depth_itemOf value,
      depth_entriesOf entries]

end

/-! ## Integers -/

/-- A part that is no integer outside of four bytes. -/
def FourBytes : CborValue → Prop
  | .number value => -2 ^ 32 ≤ value ∧ value < 2 ^ 32
  | _ => True

/-- A part that a decoder of texts restores, with distinct keys, and no integer that is not
safe. -/
def RestoredBy (decode : Bytes → String) : CborValue → Prop
  | .number value => -2 ^ 53 < value ∧ value < 2 ^ 53
  | .bigint _ => False
  | .text value => decode (utf8 value) = value
  | .map entries => DistinctKeys entries
  | .bytes _ | .array _ | .boolean _ | .null | .undefined => True

variable {decode : Bytes → String}

/-- Of a safe integer the low four bytes are read, and of a negative one those of its
complement. -/
theorem readerValue_itemOf_number {value : ℤ} (h : -2 ^ 53 < value ∧ value < 2 ^ 53) :
    readerValue decode (itemOf (.number value)) =
      .number (if 0 ≤ value then value % 2 ^ 32 else -1 - (-1 - value) % 2 ^ 32) := by
  rw [itemOf]
  split
  · have hsafe : value.toNat % 2 ^ 32 ≤ MAX_SAFE_INTEGER := Nat.le_sub_one_of_lt (mod_lt_safe _)
    rw [readerValue, value_fewest, ofUnsigned, if_pos hsafe]
    congr 1
    omega
  · have hexact : toNumber (-1 - value).toNat = (-1 - value).toNat := toNumber_of_lt (by omega)
    have hlow : (-1 - value).toNat % 2 ^ 32 + 1 < 2 ^ 53 :=
      lt_of_le_of_lt (Nat.mod_lt _ (by norm_num)) (by norm_num)
    rw [hexact, readerValue, value_fewest, toNumber_of_lt (mod_lt_safe _), toNumber_of_lt hlow]
    congr 1
    omega

theorem readerValue_number_iff {value : ℤ} (h : -2 ^ 53 < value ∧ value < 2 ^ 53) :
    readerValue decode (itemOf (.number value)) = .number value ↔
      -2 ^ 32 ≤ value ∧ value < 2 ^ 32 := by
  rw [readerValue_itemOf_number h, CborValue.number.injEq]
  split <;> omega

/-- A map with distinct keys is restored with its entries, and only with them. -/
theorem readerEntries_eq_iff {entries : List (CborValue × CborValue)}
    (hdistinct : DistinctKeys entries) :
    readerEntries decode (entriesOf entries) [] = entries ↔
      readerPairs decode (entriesOf entries) = entries := by
  have hlength : (readerPairs decode (entriesOf entries)).length = entries.length := by
    rw [readerPairs, List.length_map, length_entriesOf]
  rw [readerEntries_eq]
  constructor
  · intro hsame
    have hkept := @distinct_of_length (readerPairs decode (entriesOf entries)) []
      List.Pairwise.nil (by rw [hsame, hlength, List.length_nil, Nat.zero_add])
    rwa [setEntries_of_distinct hkept] at hsame
  · intro hsame
    rw [hsame]
    exact @setEntries_of_distinct entries [] hdistinct

mutual

/-- A value is restored exactly if its integers fit four bytes. -/
theorem readerValue_itemOf_iff : ∀ value : CborValue, Every (RestoredBy decode) value →
    (readerValue decode (itemOf value) = value ↔ Every FourBytes value)
  | .number value, h => readerValue_number_iff h
  | .bigint value, h => absurd h id
  | .bytes value, _ => iff_of_true rfl trivial
  | .text value, h => by
    have hrestored : decode (utf8 value) = value := h
    exact iff_of_true (congrArg CborValue.text hrestored) trivial
  | .array items, h => by
    have hitems := readerValues_itemsOf_iff items h.2
    rw [itemOf, readerValue, CborValue.array.injEq, hitems]
    exact ⟨fun hfit => ⟨trivial, hfit⟩, fun hfit => hfit.2⟩
  | .map entries, h => by
    have hentries := readerPairs_entriesOf_iff entries h.2
    rw [itemOf, readerValue, CborValue.map.injEq, readerEntries_eq_iff h.1, hentries]
    exact ⟨fun hfit => ⟨trivial, hfit⟩, fun hfit => hfit.2⟩
  | .boolean false, _ => iff_of_true rfl trivial
  | .boolean true, _ => iff_of_true rfl trivial
  | .null, _ => iff_of_true rfl trivial
  | .undefined, _ => iff_of_true rfl trivial

theorem readerValues_itemsOf_iff : ∀ items : List CborValue, EveryItem (RestoredBy decode) items →
    (readerValues decode (itemsOf items) = items ↔ EveryItem FourBytes items)
  | [], _ => iff_of_true rfl trivial
  | item :: items, h => by
    rw [itemsOf, readerValues, List.cons.injEq, readerValue_itemOf_iff item h.1,
      readerValues_itemsOf_iff items h.2]
    rfl

theorem readerPairs_entriesOf_iff : ∀ entries : List (CborValue × CborValue),
    EveryEntry (RestoredBy decode) entries →
      (readerPairs decode (entriesOf entries) = entries ↔ EveryEntry FourBytes entries)
  | [], _ => iff_of_true rfl trivial
  | (key, value) :: entries, h => by
    have hrest := readerPairs_entriesOf_iff entries h.2.2
    rw [readerPairs] at hrest
    rw [entriesOf, readerPairs, List.map_cons, List.cons.injEq, Prod.mk.injEq,
      readerValue_itemOf_iff key h.1, readerValue_itemOf_iff value h.2.1, hrest, and_assoc]
    rfl

end

end Verixa.Mfa.Cbor
