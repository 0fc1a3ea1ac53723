import Verixa.Encoding.Utf8
import Verixa.Mfa.Cbor
import Verixa.SharedKernel.Number

/-!
# The CBOR encoder

`encodeCbor` writes a header, which holds a major type and a number, and after it what the number
counts.  Numbers from 2^16 on are written in four bytes, whatever their size.

`encoded` is what it writes for the values that the reader makes of items, where it writes them.
-/

namespace Verixa.Mfa

open Encoding

/-- What the encoder is given. -/
inductive CborInput where
  | boolean (value : Bool)
  | null
  | undefined
  | number (value : Number)
  | text (value : String)
  | bytes (value : Bytes)
  | array (items : List CborInput)
  | map (entries : List (CborInput × CborInput))
  | object (entries : List (String × CborInput))
  | other (typeof : String)

namespace Cbor

/-- The integer that a number is, if it is one. -/
def integer? : Number → Option ℤ
  | .finite value => if value.den = 1 then some value.num else none
  | _ => none

/-- `writeUint`. -/
def writeUint (majorType num : ℕ) : Bytes :=
  let typeShift := majorType * 32
  if num < 24 then [UInt8.ofNat (typeShift + num)]
  else if num < 256 then [UInt8.ofNat (typeShift + 24), UInt8.ofNat num]
  else if num < 65536 then
    [UInt8.ofNat (typeShift + 25), UInt8.ofNat (num / 256 % 256), UInt8.ofNat (num % 256)]
  else
    [UInt8.ofNat (typeShift + 26), UInt8.ofNat (num / 16777216 % 256),
      UInt8.ofNat (num / 65536 % 256), UInt8.ofNat (num / 256 % 256), UInt8.ofNat (num % 256)]

/-- An integer. -/
def writeInteger (value : ℤ) : Bytes :=
  if 0 ≤ value then writeUint 0 value.toNat else writeUint 1 (toNumber (-1 - value).toNat)

/-- A text. -/
def writeText (value : String) : Bytes := writeUint 3 (utf8 value).length ++ utf8 value

mutual

/-- `write`. -/
def write : CborInput → Except ThrownError Bytes
  | .boolean false => .ok [0xf4]
  | .boolean true => .ok [0xf5]
  | .null => .ok [0xf6]
  | .undefined => .ok [0xf7]
  | .number value =>
    match integer? value with
    | some value => .ok (writeInteger value)
    | none => .error (thrown "Floats not supported in minimal CBOR encoder")
  | .text value => .ok (writeText value)
  | .bytes value => .ok (writeUint 2 value.length ++ value)
  | .array items => do
    let written ← writeItems items
    return writeUint 4 items.length ++ written
  | .map entries => do
    let written ← writeEntries entries
    return writeUint 5 entries.length ++ written
  | .object entries => do
    let written ← writeFields entries
    return writeUint 5 entries.length ++ written
  | .other typeof => .error (thrown ("Unsupported type for CBOR encoding: " ++ typeof))

/-- The items of an array. -/
def writeItems : List CborInput → Except ThrownError Bytes
  | [] => .ok []
  | item :: items => do
    let written ← write item
    let rest ← writeItems items
    return written ++ rest

/-- The entries of a map. -/
def writeEntries : List (CborInput × CborInput) → Except ThrownError Bytes
  | [] => .ok []
  | (key, value) :: entries => do
    let writtenKey ← write key
    let written ← write value
    let rest ← writeEntries entries
    return writtenKey ++ written ++ rest

/-- The entries of an object, whose keys are texts. -/
def writeFields : List (String × CborInput) → Except ThrownError Bytes
  | [] => .ok []
  | (key, value) :: entries => do
    let written ← write value
    let rest ← writeFields entries
    return writeText key ++ written ++ rest

end

/-- `encodeCbor(value)`. -/
def encodeCbor (value : CborInput) : Except ThrownError Bytes := write value

mutual

/-- A value that was read, as it is given to the encoder. -/
def toInput : CborValue → CborInput
  | .number value => .number (.finite value)
  | .bigint _ => .other "bigint"
  | .bytes value => .bytes value
  | .text value => .text value
  | .array items => .array (toInputs items)
  | .map entries => .map (toInputEntries entries)
  | .boolean value => .boolean value
  | .null => .null
  | .undefined => .undefined

/-- Items. -/
def toInputs : List CborValue → List CborInput
  | [] => []
  | item :: items => toInput item :: toInputs items

/-- Entries. -/
def toInputEntries : List (CborValue × CborValue) → List (CborInput × CborInput)
  | [] => []
  | (key, value) :: entries => (toInput key, toInput value) :: toInputEntries entries

end

/-! ## What is written -/

mutual

/-- What is written for a value without bigints. -/
def encoded : CborValue → Bytes
  | .number value => writeInteger value
  | .bigint _ => []
  | .bytes value => writeUint 2 value.length ++ value
  | .text value => writeText value
  | .array items => writeUint 4 items.length ++ encodedItems items
  | .map entries => writeUint 5 entries.length ++ encodedEntries entries
  | .boolean false => [0xf4]
  | .boolean true => [0xf5]
  | .null => [0xf6]
  | .undefined => [0xf7]

/-- Items. -/
def encodedItems : List CborValue → Bytes
  | [] => []
  | item :: items => encoded item ++ encodedItems items

/-- Entries. -/
def encodedEntries : List (CborValue × CborValue) → Bytes
  | [] => []
  | (key, value) :: entries => encoded key ++ (encoded value ++ encodedEntries entries)

end

mutual

/-- All parts of a value, itself and what it is made of, have a property. -/
def Every (p : CborValue → Prop) : CborValue → Prop
  | .number value => p (.number value)
  | .bigint value => p (.bigint value)
  | .bytes value => p (.bytes value)
  | .text value => p (.text value)
  | .array items => p (.array items) ∧ EveryItem p items
  | .map entries => p (.map entries) ∧ EveryEntry p entries
  | .boolean value => p (.boolean value)
  | .null => p .null
  | .undefined => p .undefined

/-- Items. -/
def EveryItem (p : CborValue → Prop) : List CborValue → Prop
  | [] => True
  | item :: items => Every p item ∧ EveryItem p items

/-- Entries. -/
def EveryEntry (p : CborValue → Prop) : List (CborValue × CborValue) → Prop
  | [] => True
  | (key, value) :: entries => Every p key ∧ Every p value ∧ EveryEntry p entries

end

/-- Every part has its property. -/
theorem Every.self {p : CborValue → Prop} {value : CborValue} (h : Every p value) : p value := by
  cases value with
  | array items => exact h.1
  | map entries => exact h.1
  | number value => exact h
  | bigint value => exact h
  | bytes value => exact h
  | text value => exact h
  | boolean value => exact h
  | null => exact h
  | undefined => exact h

/-- A part that is no bigint. -/
def NoBigint : CborValue → Prop
  | .bigint _ => False
  | _ => True

theorem length_toInputs (items : List CborValue) : (toInputs items).length = items.length := by
  induction items with
  | nil => rfl
  | cons item items ih => rw [toInputs, List.length_cons, ih, List.length_cons]

theorem length_toInputEntries (entries : List (CborValue × CborValue)) :
    (toInputEntries entries).length = entries.length := by
  induction entries with
  | nil => rfl
  | cons entry entries ih => rw [toInputEntries, List.length_cons, ih, List.length_cons]

mutual

/-- The encoder writes values without bigints. -/
theorem write_toInput : ∀ value : CborValue, Every NoBigint value →
    write (toInput value) = .ok (encoded value)
  | .number value, _ => by simp [toInput, write, integer?, encoded]
  | .bigint value, h => absurd h id
  | .bytes value, _ => rfl
  | .text value, _ => rfl
  | .array items, h => by
    rw [toInput, write, writeItems_toInputs items h.2, length_toInputs]
    rfl
  | .map entries, h => by
    rw [toInput, write, writeEntries_toInputEntries entries h.2, length_toInputEntries]
    rfl
  | .boolean false, _ => rfl
  | .boolean true, _ => rfl
  | .null, _ => rfl
  | .undefined, _ => rfl

theorem writeItems_toInputs : ∀ items : List CborValue, EveryItem NoBigint items →
    writeItems (toInputs items) = .ok (encodedItems items)
  | [], _ => rfl
  | item :: items, h => by
    rw [toInputs, writeItems, write_toInput item h.1, writeItems_toInputs items h.2]
    rfl

theorem writeEntries_toInputEntries : ∀ entries : List (CborValue × CborValue),
    EveryEntry NoBigint entries →
      writeEntries (toInputEntries entries) = .ok (encodedEntries entries)
  | [], _ => rfl
  | (key, value) :: entries, h => by
    rw [toInputEntries, writeEntries, write_toInput key h.1, write_toInput value h.2.1,
      writeEntries_toInputEntries entries h.2.2, encodedEntries, ← List.append_assoc]
    rfl

end

end Cbor

end Verixa.Mfa
