import Verixa.Encoding.Bytes
import Verixa.Encoding.PlainText

/-!
# The CBOR reader

The reader of attestation objects and public keys.  It keeps an offset into the data and calls
itself for the items of arrays and maps and for what a tag stands before; `stack` is how many such
calls the stack holds.  Lengths and integers of eight bytes are read as bigints and go through
`Number` where the source converts them.
-/

namespace Verixa.Mfa

open Encoding

/-- What the reader makes of an item. -/
inductive CborValue where
  | number (value : ℤ)
  | bigint (value : ℕ)
  | bytes (value : Bytes)
  | text (value : String)
  | array (items : List CborValue)
  | map (entries : List (CborValue × CborValue))
  | boolean (value : Bool)
  | null
  | undefined

namespace Cbor

/-- `Number.MAX_SAFE_INTEGER`. -/
def MAX_SAFE_INTEGER : ℕ := 2 ^ 53 - 1

/-- `Number(value)`: the nearest number of 53 significant bits, of two the even one. -/
def toNumber (value : ℕ) : ℕ :=
  let unit := 2 ^ (Nat.log2 value - 52)
  let below := value / unit
  let rest := value % unit
  if unit < 2 * rest ∨ (2 * rest = unit ∧ below % 2 = 1) then (below + 1) * unit
  else below * unit

/-- An error thrown by the reader. -/
def thrown (message : String) : ThrownError := { message := message }

/-- Two keys are one to a `Map`: objects are keys by their identity, and no two items that are read
are one object. -/
def sameKey : CborValue → CborValue → Bool
  | .number a, .number b => a == b
  | .bigint a, .bigint b => a == b
  | .text a, .text b => a == b
  | .boolean a, .boolean b => a == b
  | .null, .null => true
  | .undefined, .undefined => true
  | _, _ => false

/-- `map.get(key)`. -/
def getEntry (entries : List (CborValue × CborValue)) (key : CborValue) : Option CborValue :=
  (entries.find? fun entry => sameKey entry.1 key).map Prod.snd

/-- `map.set(key, value)`. -/
def setEntry (entries : List (CborValue × CborValue)) (key value : CborValue) :
    List (CborValue × CborValue) :=
  if entries.any fun entry => sameKey entry.1 key then
    entries.map fun entry => if sameKey entry.1 key then (entry.1, value) else entry
  else entries ++ [(key, value)]

section Reader

variable (data : Bytes)

/-- The number in the next `width` bytes. -/
def readNumber (offset width : ℕ) : Except ThrownError (ℕ × ℕ) :=
  if offset + width > data.length then
    .error (thrown s!"Unexpected EOF reading {width}-byte value")
  else .ok (bigEndian (subarray data offset (offset + width)), offset + width)

/-- The value that the low bits of an initial byte hold or announce. -/
def readLengthOrValue (offset additionalInfo : ℕ) : Except ThrownError (ℕ × ℕ) :=
  if additionalInfo < 24 then .ok (additionalInfo, offset)
  else if additionalInfo = 24 then readNumber data offset 1
  else if additionalInfo = 25 then readNumber data offset 2
  else if additionalInfo = 26 then readNumber data offset 4
  else if additionalInfo = 27 then readNumber data offset 8
  else .error (thrown s!"Unsupported CBOR additional info: {additionalInfo}")

/-- A value as it is returned: a bigint where a number would not be exact. -/
def ofUnsigned (value : ℕ) : CborValue :=
  if value ≤ MAX_SAFE_INTEGER then .number value else .bigint value

/-- The bytes of a string of the given length. -/
def readSlice (kind : String) (offset length : ℕ) : Except ThrownError (Bytes × ℕ) :=
  if offset + length > data.length then
    .error (thrown s!"CBOR {kind} string extends past end of buffer")
  else .ok (subarray data offset (offset + length), offset + length)

/-- The loop over the items of an array. -/
def readItems (readItem : ℕ → Except ThrownError (CborValue × ℕ)) :
    ℕ → ℕ → Except ThrownError (List CborValue × ℕ)
  | 0, offset => .ok ([], offset)
  | length + 1, offset => do
    let (item, offset) ← readItem offset
    let (items, offset) ← readItems readItem length offset
    return (item :: items, offset)

/-- The loop over the entries of a map. -/
def readEntries (readItem : ℕ → Except ThrownError (CborValue × ℕ)) :
    ℕ → List (CborValue × CborValue) → ℕ →
      Except ThrownError (List (CborValue × CborValue) × ℕ)
  | 0, entries, offset => .ok (entries, offset)
  | length + 1, entries, offset => do
    let (key, offset) ← readItem offset
    let (value, offset) ← readItem offset
    readEntries readItem length (setEntry entries key value) offset

/-- The simple values. -/
def simpleValue (additionalInfo value : ℕ) : CborValue :=
  match additionalInfo with
  | 20 => .boolean false
  | 21 => .boolean true
  | 22 => .null
  | 23 => .undefined
  | _ => ofUnsigned value

/-- `read()`: the item at the offset, and the offset after it. -/
def read (decodeText : Bytes → String) : ℕ → ℕ → Except ThrownError (CborValue × ℕ)
  | 0, _ => .error stackExceeded
  | stack + 1, offset =>
    match data[offset]? with
    | none => .error (thrown "Unexpected end of CBOR input")
    | some initialByte => do
      let majorType := initialByte.toNat / 32
      let additionalInfo := initialByte.toNat % 32
      let (value, offset) ← readLengthOrValue data (offset + 1) additionalInfo
      match majorType with
      | 0 => return (ofUnsigned value, offset)
      | 1 => return (.number (-(toNumber (toNumber value + 1))), offset)
      | 2 =>
        let (slice, offset) ← readSlice data "byte" offset (toNumber value)
        return (.bytes slice, offset)
      | 3 =>
        let (slice, offset) ← readSlice data "text" offset (toNumber value)
        return (.text (decodeText slice), offset)
      | 4 =>
        let (items, offset) ← readItems (read decodeText stack) (toNumber value) offset
        return (.array items, offset)
      | 5 =>
        let (entries, offset) ← readEntries (read decodeText stack) (toNumber value) [] offset
        return (.map entries, offset)
      | 6 => read decodeText stack offset
      | 7 => return (simpleValue additionalInfo value, offset)
      | _ => .error (thrown s!"Unsupported CBOR major type: {majorType}")

/-- `decodeCbor(data)`: the first item, whatever follows it. -/
def decodeCbor (decodeText : Bytes → String) (stack : ℕ) : Except ThrownError CborValue :=
  (read data decodeText stack 0).map Prod.fst

end Reader

end Cbor

end Verixa.Mfa
