import Verixa.Mfa.CborWrittenItems

/-!
# Integers through the CBOR encoder

A safe integer should be read back as it was written, or not be written at all.  `writeUint` has no
branch for eight bytes: from 2^32 on only the low four bytes of a number are written, without an
error.  So a value of arrays and maps is read back exactly if its integers fit four bytes
(`reads_back_iff`).
-/

namespace Verixa.Mfa.Cbor

open Encoding CborItem

/-- A part that is a safe integer, a map with distinct keys or a text without a mark, and has no
length from 2^32 on. -/
def Storable : CborValue → Prop
  | .number value => -2 ^ 53 < value ∧ value < 2 ^ 53
  | .bigint _ => False
  | .text value => value.toList.head? ≠ some byteOrderMark ∧ (utf8 value).length < 2 ^ 32
  | .bytes value => value.length < 2 ^ 32
  | .array items => items.length < 2 ^ 32
  | .map entries => DistinctKeys entries ∧ entries.length < 2 ^ 32
  | .boolean _ | .null | .undefined => True

/-- Where the encoder writes the value, the reader returns it, with a stack that is deep enough. -/
def ReadsBack (value : CborValue) : Prop :=
  ∀ written, encodeCbor (toInput value) = .ok written → ∀ stack, depth value < stack →
    decodeCbor written decodeText stack = .ok value

section

variable {p q : CborValue → Prop}

mutual

/-- What every part has, every part has that follows from it. -/
theorem Every.imp (h : ∀ part, p part → q part) : ∀ value : CborValue, Every p value → Every q value
  | .array items, hvalue => ⟨h _ hvalue.1, EveryItem.imp h items hvalue.2⟩
  | .map entries, hvalue => ⟨h _ hvalue.1, EveryEntry.imp h entries hvalue.2⟩
  | .number _, hvalue | .bigint _, hvalue | .bytes _, hvalue | .text _, hvalue
  | .boolean _, hvalue | .null, hvalue | .undefined, hvalue => h _ hvalue

theorem EveryItem.imp (h : ∀ part, p part → q part) :
    ∀ items : List CborValue, EveryItem p items → EveryItem q items
  | [], _ => trivial
  | item :: items, hitems => ⟨Every.imp h item hitems.1, EveryItem.imp h items hitems.2⟩

theorem EveryEntry.imp (h : ∀ part, p part → q part) :
    ∀ entries : List (CborValue × CborValue), EveryEntry p entries → EveryEntry q entries
  | [], _ => trivial
  | (key, value) :: entries, hentries =>
    ⟨Every.imp h key hentries.1, Every.imp h value hentries.2.1,
      EveryEntry.imp h entries hentries.2.2⟩

end

end

theorem lengthFits_of_storable (part : CborValue) (h : Storable part) : LengthFits part := by
  cases part with
  | text value => exact h.2
  | map entries => exact h.2
  | bytes value => exact h
  | array items => exact h
  | _ => trivial

theorem restored_of_storable (part : CborValue) (h : Storable part) :
    RestoredBy decodeText part := by
  cases part with
  | number value => exact h
  | bigint value => exact h
  | text value => exact (decodeText_utf8_iff value).mpr h.1
  | map entries => exact h.1
  | _ => trivial

theorem noBigint_of_storable (part : CborValue) (h : Storable part) : NoBigint part := by
  cases part with
  | bigint value => exact h
  | _ => trivial

/-- What is written for a value of storable parts is read as what the reader makes of its item. -/
theorem read_written {value : CborValue} (h : Every Storable value)
    (hsize : (encoded value).length < 2 ^ 53) {stack : ℕ} (hstack : depth value < stack) :
    decodeCbor (encoded value) decodeText stack =
      .ok (readerValue decodeText (itemOf value)) := by
  have hbytes := encoded_eq_toBytes value (Every.imp noBigint_of_storable value h)
  have hcounted := counted_itemOf value (Every.imp lengthFits_of_storable value h)
  have hread := @read_item decodeText (itemOf value) hcounted (encoded value) [] 0 stack hsize
    (by rw [List.drop_zero, List.append_nil, hbytes]) (by rwa [depth_itemOf])
  rw [decodeCbor, hread]
  rfl

/-- A value is read back exactly if all integers in it, at any depth, fit four bytes. -/
theorem reads_back_iff (value : CborValue) (h : Every Storable value)
    (hsize : (encoded value).length < 2 ^ 53) : ReadsBack value ↔ Every FourBytes value := by
  have hwritten : encodeCbor (toInput value) = .ok (encoded value) :=
    write_toInput value (Every.imp noBigint_of_storable value h)
  have hrestored := readerValue_itemOf_iff value (Every.imp restored_of_storable value h)
  rw [← hrestored]
  constructor
  · intro hback
    have hread := hback _ hwritten (depth value + 1) (Nat.lt_succ_self _)
    rw [read_written h hsize (Nat.lt_succ_self _)] at hread
    exact Except.ok.inj hread
  · intro hsame written hother stack hstack
    rw [hwritten] at hother
    obtain rfl := Except.ok.inj hother
    rw [read_written h hsize hstack, hsame]

/-- An array of a map of the least integers that need five bytes with their heads. -/
def sampleIntegers : CborValue := .array [.map [(.number (-65537), .number 65536)], .number 24]

theorem reads_back_iff_sample : ReadsBack sampleIntegers := by
  refine (reads_back_iff sampleIntegers ?_ (by decide +kernel)).mpr ?_
  · simp [sampleIntegers, Every, EveryItem, EveryEntry, Storable, DistinctKeys]
  · simp [sampleIntegers, Every, EveryItem, EveryEntry, FourBytes]

/-- The integer 2^32 is written without an error and read as 0. -/
theorem large_integer_lost : ¬∀ value : CborValue, Every Storable value → ReadsBack value := by
  intro h
  have hstorable : Every Storable (.number (2 ^ 32)) := by
    change -2 ^ 53 < (2 ^ 32 : ℤ) ∧ (2 ^ 32 : ℤ) < 2 ^ 53
    norm_num
  have hback := h (.number (2 ^ 32)) hstorable (encoded (.number (2 ^ 32)))
    (write_toInput _ trivial) 1 Nat.one_pos
  rw [read_written hstorable (by decide +kernel) Nat.one_pos] at hback
  have hsame := (readerValue_number_iff hstorable).mp (Except.ok.inj hback)
  norm_num at hsame

end Verixa.Mfa.Cbor
