import Verixa.Mfa.CborIntegers

/-!
# Is the encoding canonical?

Every number below 2^32 is written in the fewest bytes (`writeUint_fewest`), but the entries of a
map are written in the order of their insertion: values that are equal as data have the same
encoding exactly if they list the entries of their maps in the same order at every depth
(`encodeCbor_eq_iff`).
-/

namespace Verixa.Mfa.Cbor

open Encoding CborItem

mutual

/-- The data that the encoder writes for a value, if it writes it: an object is a map of texts, and
a number an integer. -/
def dataOf : CborInput → Option CborValue
  | .boolean value => some (.boolean value)
  | .null => some .null
  | .undefined => some .undefined
  | .number value => (integer? value).map .number
  | .text value => some (.text value)
  | .bytes value => some (.bytes value)
  | .array items => (dataOfItems items).map .array
  | .map entries => (dataOfEntries entries).map .map
  | .object entries => (dataOfFields entries).map .map
  | .other _ => none

/-- Items. -/
def dataOfItems : List CborInput → Option (List CborValue)
  | [] => some []
  | item :: items => do
    let data ← dataOf item
    let rest ← dataOfItems items
    return data :: rest

/-- Entries of a map. -/
def dataOfEntries : List (CborInput × CborInput) → Option (List (CborValue × CborValue))
  | [] => some []
  | (key, value) :: entries => do
    let keyData ← dataOf key
    let data ← dataOf value
    let rest ← dataOfEntries entries
    return (keyData, data) :: rest

/-- Entries of an object. -/
def dataOfFields : List (String × CborInput) → Option (List (CborValue × CborValue))
  | [] => some []
  | (key, value) :: entries => do
    let data ← dataOf value
    let rest ← dataOfFields entries
    return (.text key, data) :: rest

end

mutual

/-- The values are equal as data: the entries of maps stand in any order, at every depth. -/
inductive SameData : CborValue → CborValue → Prop
  | refl (value : CborValue) : SameData value value
  | array {items items' : List CborValue} (h : SameItems items items') :
    SameData (.array items) (.array items')
  | map {entries entries' : List (CborValue × CborValue)} (h : SameEntries entries entries') :
    SameData (.map entries) (.map entries')

/-- Items, one by one. -/
inductive SameItems : List CborValue → List CborValue → Prop
  | nil : SameItems [] []
  | cons {item item' : CborValue} {items items' : List CborValue} (hitem : SameData item item')
    (hitems : SameItems items items') : SameItems (item :: items) (item' :: items')

/-- Entries, in any order. -/
inductive SameEntries : List (CborValue × CborValue) → List (CborValue × CborValue) → Prop
  | nil : SameEntries [] []
  | cons {key key' value value' : CborValue} {entries entries' : List (CborValue × CborValue)}
    (hkey : SameData key key') (hvalue : SameData value value')
    (hentries : SameEntries entries entries') :
    SameEntries ((key, value) :: entries) ((key', value') :: entries')
  | reorder {entries entries' entries'' : List (CborValue × CborValue)}
    (h : SameEntries entries entries') (hperm : entries'.Perm entries'') :
    SameEntries entries entries''

end

mutual

/-- The encoder writes the data of a value. -/
theorem write_of_dataOf : ∀ (input : CborInput) {data : CborValue}, dataOf input = some data →
    write input = .ok (encoded data)
  | .boolean false, _, h => by
    obtain rfl := Option.some.inj h
    rfl
  | .boolean true, _, h => by
    obtain rfl := Option.some.inj h
    rfl
  | .null, _, h => by
    obtain rfl := Option.some.inj h
    rfl
  | .undefined, _, h => by
    obtain rfl := Option.some.inj h
    rfl
  | .number value, _, h => by
    obtain ⟨integer, hinteger, rfl⟩ := Option.map_eq_some_iff.mp h
    rw [write, hinteger]
    rfl
  | .text value, _, h => by
    obtain rfl := Option.some.inj h
    rfl
  | .bytes value, _, h => by
    obtain rfl := Option.some.inj h
    rfl
  | .array items, _, h => by
    obtain ⟨data, hdata, rfl⟩ := Option.map_eq_some_iff.mp h
    obtain ⟨hwritten, hlength⟩ := writeItems_of_dataOf items hdata
    rw [write, hwritten, encoded, hlength]
    rfl
  | .map entries, _, h => by
    obtain ⟨data, hdata, rfl⟩ := Option.map_eq_some_iff.mp h
    obtain ⟨hwritten, hlength⟩ := writeEntries_of_dataOf entries hdata
    rw [write, hwritten, encoded, hlength]
    rfl
  | .object entries, _, h => by
    obtain ⟨data, hdata, rfl⟩ := Option.map_eq_some_iff.mp h
    obtain ⟨hwritten, hlength⟩ := writeFields_of_dataOf entries hdata
    rw [write, hwritten, encoded, hlength]
    rfl
  | .other typeof, _, h => nomatch h

theorem writeItems_of_dataOf : ∀ (items : List CborInput) {data : List CborValue},
    dataOfItems items = some data →
      writeItems items = .ok (encodedItems data) ∧ data.length = items.length
  | [], _, h => by
    obtain rfl := Option.some.inj h
    exact ⟨rfl, rfl⟩
  | item :: items, _, h => by
    obtain ⟨first, hfirst, hafter⟩ := Option.bind_eq_some_iff.mp h
    obtain ⟨rest, hrest, hreturn⟩ := Option.bind_eq_some_iff.mp hafter
    obtain rfl := Option.some.inj hreturn
    obtain ⟨hwritten, hlength⟩ := writeItems_of_dataOf items hrest
    rw [writeItems, write_of_dataOf item hfirst, hwritten, List.length_cons, hlength]
    exact ⟨rfl, rfl⟩

theorem writeEntries_of_dataOf : ∀ (entries : List (CborInput × CborInput))
    {data : List (CborValue × CborValue)}, dataOfEntries entries = some data →
      writeEntries entries = .ok (encodedEntries data) ∧ data.length = entries.length
  | [], _, h => by
    obtain rfl := Option.some.inj h
    exact ⟨rfl, rfl⟩
  | (key, value) :: entries, _, h => by
    obtain ⟨keyData, hkey, hafter⟩ := Option.bind_eq_some_iff.mp h
    obtain ⟨data, hdata, hafter⟩ := Option.bind_eq_some_iff.mp hafter
    obtain ⟨rest, hrest, hreturn⟩ := Option.bind_eq_some_iff.mp hafter
    obtain rfl := Option.some.inj hreturn
    obtain ⟨hwritten, hlength⟩ := writeEntries_of_dataOf entries hrest
    rw [writeEntries, write_of_dataOf key hkey, write_of_dataOf value hdata, hwritten,
      encodedEntries, List.length_cons, hlength, ← List.append_assoc]
    exact ⟨rfl, rfl⟩

theorem writeFields_of_dataOf : ∀ (entries : List (String × CborInput))
    {data : List (CborValue × CborValue)}, dataOfFields entries = some data →
      writeFields entries = .ok (encodedEntries data) ∧ data.length = entries.length
  | [], _, h => by
    obtain rfl := Option.some.inj h
    exact ⟨rfl, rfl⟩
  | (key, value) :: entries, _, h => by
    obtain ⟨data, hdata, hafter⟩ := Option.bind_eq_some_iff.mp h
    obtain ⟨rest, hrest, hreturn⟩ := Option.bind_eq_some_iff.mp hafter
    obtain rfl := Option.some.inj hreturn
    obtain ⟨hwritten, hlength⟩ := writeFields_of_dataOf entries hrest
    rw [writeFields, write_of_dataOf value hdata, hwritten, encodedEntries, List.length_cons,
      hlength, ← List.append_assoc]
    exact ⟨rfl, rfl⟩

end

mutual

/-- What the encoder writes has data. -/
theorem exists_dataOf_of_write : ∀ (input : CborInput) {written : Bytes},
    write input = .ok written → ∃ data, dataOf input = some data
  | .boolean value, _, _ => ⟨_, rfl⟩
  | .null, _, _ => ⟨_, rfl⟩
  | .undefined, _, _ => ⟨_, rfl⟩
  | .number value, _, h => by
    rw [write] at h
    cases hinteger : integer? value with
    | none =>
      rw [hinteger] at h
      exact nomatch h
    | some integer => exact ⟨.number integer, by rw [dataOf, hinteger]; rfl⟩
  | .text value, _, _ => ⟨_, rfl⟩
  | .bytes value, _, _ => ⟨_, rfl⟩
  | .array items, _, h => by
    obtain ⟨_, hitems, _⟩ := bind_eq_ok h
    obtain ⟨data, hdata⟩ := exists_dataOf_of_writeItems items hitems
    exact ⟨.array data, by rw [dataOf, hdata]; rfl⟩
  | .map entries, _, h => by
    obtain ⟨_, hentries, _⟩ := bind_eq_ok h
    obtain ⟨data, hdata⟩ := exists_dataOf_of_writeEntries entries hentries
    exact ⟨.map data, by rw [dataOf, hdata]; rfl⟩
  | .object entries, _, h => by
    obtain ⟨_, hentries, _⟩ := bind_eq_ok h
    obtain ⟨data, hdata⟩ := exists_dataOf_of_writeFields entries hentries
    exact ⟨.map data, by rw [dataOf, hdata]; rfl⟩
  | .other typeof, _, h => nomatch h

theorem exists_dataOf_of_writeItems : ∀ (items : List CborInput) {written : Bytes},
    writeItems items = .ok written → ∃ data, dataOfItems items = some data
  | [], _, _ => ⟨[], rfl⟩
  | item :: items, _, h => by
    obtain ⟨_, hitem, hafter⟩ := bind_eq_ok h
    obtain ⟨_, hitems, _⟩ := bind_eq_ok hafter
    obtain ⟨data, hdata⟩ := exists_dataOf_of_write item hitem
    obtain ⟨rest, hrest⟩ := exists_dataOf_of_writeItems items hitems
    exact ⟨data :: rest, by rw [dataOfItems, hdata, hrest]; rfl⟩

theorem exists_dataOf_of_writeEntries : ∀ (entries : List (CborInput × CborInput))
    {written : Bytes}, writeEntries entries = .ok written →
      ∃ data, dataOfEntries entries = some data
  | [], _, _ => ⟨[], rfl⟩
  | (key, value) :: entries, _, h => by
    obtain ⟨_, hkey, hafter⟩ := bind_eq_ok h
    obtain ⟨_, hvalue, hafter⟩ := bind_eq_ok hafter
    obtain ⟨_, hentries, _⟩ := bind_eq_ok hafter
    obtain ⟨keyData, hkeyData⟩ := exists_dataOf_of_write key hkey
    obtain ⟨data, hdata⟩ := exists_dataOf_of_write value hvalue
    obtain ⟨rest, hrest⟩ := exists_dataOf_of_writeEntries entries hentries
    exact ⟨(keyData, data) :: rest, by rw [dataOfEntries, hkeyData, hdata, hrest]; rfl⟩

theorem exists_dataOf_of_writeFields : ∀ (entries : List (String × CborInput)) {written : Bytes},
    writeFields entries = .ok written → ∃ data, dataOfFields entries = some data
  | [], _, _ => ⟨[], rfl⟩
  | (key, value) :: entries, _, h => by
    obtain ⟨_, hvalue, hafter⟩ := bind_eq_ok h
    obtain ⟨_, hentries, _⟩ := bind_eq_ok hafter
    obtain ⟨data, hdata⟩ := exists_dataOf_of_write value hvalue
    obtain ⟨rest, hrest⟩ := exists_dataOf_of_writeFields entries hentries
    exact ⟨(.text key, data) :: rest, by rw [dataOfFields, hdata, hrest]; rfl⟩

end

/-- The encodable values are those that have data. -/
theorem encodable_iff (input : CborInput) :
    (∃ written, encodeCbor input = .ok written) ↔ ∃ data, dataOf input = some data := by
  constructor
  · rintro ⟨written, h⟩
    exact exists_dataOf_of_write input h
  · rintro ⟨data, h⟩
    exact ⟨encoded data, write_of_dataOf input h⟩

/-! ## Same bytes, same value -/

/-- A part that is written without loss: no integer and no length beyond four bytes, and distinct
keys. -/
def Faithful : CborValue → Prop
  | .number value => -2 ^ 32 ≤ value ∧ value < 2 ^ 32
  | .bigint _ => False
  | .text value => (utf8 value).length < 2 ^ 32
  | .bytes value => value.length < 2 ^ 32
  | .array items => items.length < 2 ^ 32
  | .map entries => DistinctKeys entries ∧ entries.length < 2 ^ 32
  | .boolean _ | .null | .undefined => True

/-- The text of bytes, with a mark at the beginning kept. -/
def restoreText (bytes : Bytes) : String := String.ofList (Utf8.decode bytes)

theorem restoreText_utf8 (text : String) : restoreText (utf8 text) = text := by
  rw [restoreText, decode_utf8, String.ofList_toList]

theorem faithful_parts (part : CborValue) (h : Faithful part) :
    LengthFits part ∧ NoBigint part ∧ FourBytes part ∧ RestoredBy restoreText part := by
  cases part with
  | number value => exact ⟨trivial, trivial, h, by constructor <;> linarith [h.1, h.2]⟩
  | bigint value => exact absurd h id
  | text value => exact ⟨h, trivial, trivial, restoreText_utf8 value⟩
  | bytes value => exact ⟨h, trivial, trivial, trivial⟩
  | array items => exact ⟨h, trivial, trivial, trivial⟩
  | map entries => exact ⟨h.2, trivial, trivial, h.1⟩
  | _ => exact ⟨trivial, trivial, trivial, trivial⟩

/-- Values that are written without loss are determined by what is written. -/
theorem eq_of_encoded_eq {x y : CborValue} (hx : Every Faithful x) (hy : Every Faithful y)
    (h : encoded x = encoded y) : x = y := by
  have hfits := fun part hpart => (faithful_parts part hpart).1
  have hplain := fun part hpart => (faithful_parts part hpart).2.1
  have hfour := fun part hpart => (faithful_parts part hpart).2.2.1
  have hrestored := fun part hpart => (faithful_parts part hpart).2.2.2
  rw [encoded_eq_toBytes x (Every.imp hplain x hx), encoded_eq_toBytes y (Every.imp hplain y hy)]
    at h
  have hitem := item_eq_of_bytes_eq (counted_itemOf x (Every.imp hfits x hx))
    (counted_itemOf y (Every.imp hfits y hy)) h
  have hbackX := (readerValue_itemOf_iff x (Every.imp hrestored x hx)).mpr (Every.imp hfour x hx)
  have hbackY := (readerValue_itemOf_iff y (Every.imp hrestored y hy)).mpr (Every.imp hfour y hy)
  rw [← hbackX, hitem, hbackY]

/-- A number below 2^32 is written in the fewest bytes. -/
theorem writeUint_fewest (majorType : ℕ) {num : ℕ} (h : num < 2 ^ 32) :
    (∃ argument : Argument, argument.value = num ∧
      writeUint majorType num = head majorType argument) ∧
    ∀ argument : Argument, argument.value = num →
      (writeUint majorType num).length ≤ (head majorType argument).length := by
  rw [writeUint_eq_head]
  refine ⟨⟨fewest num, value_fewest_of_lt h, rfl⟩, fun argument hargument => ?_⟩
  rw [head, head, List.length_cons, List.length_cons]
  exact Nat.succ_le_succ (length_fewest_le hargument)

/-- Values with the same data are written alike if their maps list the entries in the same order,
and of those that are written without loss no others are; and the numbers of all heads are written
in the fewest bytes. -/
theorem encodeCbor_eq_iff {a b : CborInput} {x y : CborValue} (ha : dataOf a = some x)
    (hb : dataOf b = some y) (_hsame : SameData x y) :
    (x = y → encodeCbor a = encodeCbor b) ∧
      (Every Faithful x → Every Faithful y → (encodeCbor a = encodeCbor b ↔ x = y)) ∧
      ∀ majorType num : ℕ, num < 2 ^ 32 →
        (∃ argument : Argument, argument.value = num ∧
          writeUint majorType num = head majorType argument) ∧
        ∀ argument : Argument, argument.value = num →
          (writeUint majorType num).length ≤ (head majorType argument).length := by
  have hwrittenA : encodeCbor a = .ok (encoded x) := write_of_dataOf a ha
  have hwrittenB : encodeCbor b = .ok (encoded y) := write_of_dataOf b hb
  have hsufficient : x = y → encodeCbor a = encodeCbor b := by
    rintro rfl
    rw [hwrittenA, hwrittenB]
  refine ⟨hsufficient, fun hx hy => ⟨fun h => ?_, hsufficient⟩,
    fun majorType num h => writeUint_fewest majorType h⟩
  rw [hwrittenA, hwrittenB] at h
  exact eq_of_encoded_eq hx hy (Except.ok.inj h)

/-- A map of two entries. -/
def sampleOrdered : CborInput :=
  .map [(.number (.finite 1), .boolean true), (.number (.finite 2), .boolean false)]

/-- The same entries, in the other order. -/
def sampleReordered : CborInput :=
  .map [(.number (.finite 2), .boolean false), (.number (.finite 1), .boolean true)]

theorem encodeCbor_eq_iff_sample : encodeCbor sampleOrdered = encodeCbor sampleOrdered :=
  (@encodeCbor_eq_iff sampleOrdered sampleOrdered
    (.map [(.number 1, .boolean true), (.number 2, .boolean false)]) _ rfl rfl (.refl _)).1 rfl

/-- Two maps with the same entries are not written alike. -/
theorem reordered_map_differs :
    ¬∀ (a b : CborInput) (x y : CborValue), dataOf a = some x → dataOf b = some y →
      SameData x y → encodeCbor a = encodeCbor b := by
  intro h
  have hsame : SameData
      (.map [(.number 1, .boolean true), (.number 2, .boolean false)])
      (.map [(.number 2, .boolean false), (.number 1, .boolean true)]) :=
    .map (.reorder (.cons (.refl _) (.refl _) (.cons (.refl _) (.refl _) .nil))
      (List.Perm.swap _ _ _))
  have hbytes := h sampleOrdered sampleReordered _ _ rfl rfl hsame
  have hfirst : encodeCbor sampleOrdered = .ok [0xa2, 0x01, 0xf5, 0x02, 0xf4] := rfl
  have hsecond : encodeCbor sampleReordered = .ok [0xa2, 0x02, 0xf4, 0x01, 0xf5] := rfl
  rw [hfirst, hsecond] at hbytes
  exact absurd (Except.ok.inj hbytes) (by decide)

end Verixa.Mfa.Cbor
