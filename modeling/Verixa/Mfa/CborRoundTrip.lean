import Verixa.Mfa.CborEncoding

/-!
# Reading what was written

The encoder and the reader of CBOR are to be inverse to each other, with anything behind what was
written: for a value of integers of four bytes, byte strings, texts, booleans, null, arrays and maps
with distinct keys, the reader should return the value and stop where the encoding ends.

It does when no text in the value begins with a byte order mark, which a `TextDecoder` drops, and
nothing in it has a length of 2^32 or more, which is written in four bytes all the same; and only
then (`cbor_round_trip_iff`).  A text that is nothing but the mark is read as the empty one
(`mark_not_read_back`).
-/

namespace Verixa.Mfa.Cbor

open Encoding

/-! ## Headers -/

theorem toNumber_of_lt {n : ℕ} (h : n < 2 ^ 53) : toNumber n = n := by
  have hlog : Nat.log2 n - 52 = 0 := by
    rcases Nat.eq_zero_or_pos n with rfl | hpos
    · rfl
    · have hlt : Nat.log2 n < 53 := (Nat.log2_lt hpos.ne').mpr h
      omega
  have hone : ¬ (1 < 2 * (n % 1) ∨ 2 * (n % 1) = 1 ∧ n / 1 % 2 = 1) := by
    rw [Nat.mod_one]
    omega
  unfold toNumber
  simp only [hlog, pow_zero]
  rw [if_neg hone, Nat.div_one, Nat.mul_one]

theorem bigEndian_two (a b : UInt8) : bigEndian [a, b] = a.toNat * 256 + b.toNat := by
  simp [bigEndian]

theorem bigEndian_four (a b c d : UInt8) :
    bigEndian [a, b, c, d] = ((a.toNat * 256 + b.toNat) * 256 + c.toNat) * 256 + d.toNat := by
  simp [bigEndian]

section

variable {data before behind : Bytes} {offset : ℕ}

/-- The bytes behind a position. -/
theorem subarray_behind {bytes : Bytes} (hdata : data = before ++ (bytes ++ behind))
    (hoffset : before.length = offset) (n : ℕ) (hn : n ≤ bytes.length) :
    subarray data offset (offset + n) = bytes.take n := by
  subst hoffset
  rw [subarray, hdata, List.take_length_add_append, List.drop_left,
    List.take_append_of_le_length hn]

/-- A number of bytes is read. -/
theorem readNumber_eq {bytes : Bytes} (hdata : data = before ++ (bytes ++ behind))
    (hoffset : before.length = offset) :
    readNumber data offset bytes.length = .ok (bigEndian bytes, offset + bytes.length) := by
  have hlength : ¬ offset + bytes.length > data.length := by
    rw [hdata, List.length_append, List.length_append]
    omega
  rw [readNumber, if_neg hlength, subarray_behind hdata hoffset _ le_rfl, List.take_length]

/-- The first byte of a header. -/
theorem initialByte_eq {majorType additionalInfo : ℕ} {rest : Bytes} (hmajor : majorType < 8)
    (hinfo : additionalInfo < 32)
    (hdata : data = before ++ (UInt8.ofNat (majorType * 32 + additionalInfo) :: rest))
    (hoffset : before.length = offset) :
    ∃ initialByte, data[offset]? = some initialByte ∧ initialByte.toNat / 32 = majorType ∧
      initialByte.toNat % 32 = additionalInfo := by
  have hbyte : (UInt8.ofNat (majorType * 32 + additionalInfo)).toNat =
      majorType * 32 + additionalInfo := Utf8.toNat_byte (by omega)
  refine ⟨UInt8.ofNat (majorType * 32 + additionalInfo), ?_, ?_, ?_⟩
  · rw [hdata, ← hoffset, List.getElem?_append_right le_rfl, Nat.sub_self]
    rfl
  · omega
  · omega

/-- A header is read as its major type and its number, modulo 2^32. -/
theorem exists_header {majorType num : ℕ} (hmajor : majorType < 8)
    (hdata : data = before ++ (writeUint majorType num ++ behind))
    (hoffset : before.length = offset) :
    ∃ initialByte, data[offset]? = some initialByte ∧ initialByte.toNat / 32 = majorType ∧
      readLengthOrValue data (offset + 1) (initialByte.toNat % 32) =
        .ok (num % 2 ^ 32, offset + (writeUint majorType num).length) := by
  have hnext : ∀ b : UInt8, (before ++ [b]).length = offset + 1 := fun b => by
    rw [List.length_append, hoffset, List.length_singleton]
  unfold writeUint at hdata ⊢
  dsimp only at hdata ⊢
  split at hdata
  · rename_i hnum
    obtain ⟨initialByte, hbyte, htype, hinfo⟩ := initialByte_eq hmajor (by omega) hdata hoffset
    refine ⟨initialByte, hbyte, htype, ?_⟩
    rw [hinfo, readLengthOrValue, if_pos hnum, if_pos hnum, Nat.mod_eq_of_lt (by omega)]
    rfl
  · rename_i hone
    rw [if_neg hone]
    split at hdata
    · rename_i hnum
      obtain ⟨initialByte, hbyte, htype, hinfo⟩ := initialByte_eq hmajor (by omega) hdata hoffset
      refine ⟨initialByte, hbyte, htype, ?_⟩
      have hdata' : data = (before ++ [UInt8.ofNat (majorType * 32 + 24)]) ++
          ([UInt8.ofNat num] ++ behind) := by simpa using hdata
      have hread := readNumber_eq hdata' (hnext _)
      rw [List.length_singleton] at hread
      rw [hinfo, if_pos hnum, readLengthOrValue, if_neg (by omega), if_pos rfl, hread,
        Nat.mod_eq_of_lt (by omega)]
      simp [bigEndian, Nat.mod_eq_of_lt hnum]
    · rename_i htwo
      rw [if_neg htwo]
      split at hdata
      · rename_i hnum
        obtain ⟨initialByte, hbyte, htype, hinfo⟩ := initialByte_eq hmajor (by omega) hdata hoffset
        refine ⟨initialByte, hbyte, htype, ?_⟩
        have hdata' : data = (before ++ [UInt8.ofNat (majorType * 32 + 25)]) ++
            ([UInt8.ofNat (num / 256 % 256), UInt8.ofNat (num % 256)] ++ behind) := by
          simpa using hdata
        have hread := readNumber_eq hdata' (hnext _)
        have hvalue : (UInt8.ofNat (num / 256 % 256)).toNat * 256 +
            (UInt8.ofNat (num % 256)).toNat = num % 2 ^ 32 := by
          rw [Utf8.toNat_byte (by omega), Utf8.toNat_byte (by omega)]
          omega
        rw [bigEndian_two, hvalue] at hread
        rw [hinfo, if_pos hnum, readLengthOrValue, if_neg (by omega), if_neg (by omega), if_pos rfl]
        exact hread
      · rename_i hnum
        obtain ⟨initialByte, hbyte, htype, hinfo⟩ := initialByte_eq hmajor (by omega) hdata hoffset
        refine ⟨initialByte, hbyte, htype, ?_⟩
        have hdata' : data = (before ++ [UInt8.ofNat (majorType * 32 + 26)]) ++
            ([UInt8.ofNat (num / 16777216 % 256), UInt8.ofNat (num / 65536 % 256),
              UInt8.ofNat (num / 256 % 256), UInt8.ofNat (num % 256)] ++ behind) := by
          simpa using hdata
        have hread := readNumber_eq hdata' (hnext _)
        have hvalue : (((UInt8.ofNat (num / 16777216 % 256)).toNat * 256 +
            (UInt8.ofNat (num / 65536 % 256)).toNat) * 256 +
            (UInt8.ofNat (num / 256 % 256)).toNat) * 256 + (UInt8.ofNat (num % 256)).toNat =
              num % 2 ^ 32 := by
          rw [Utf8.toNat_byte (by omega), Utf8.toNat_byte (by omega), Utf8.toNat_byte (by omega),
            Utf8.toNat_byte (by omega)]
          omega
        rw [bigEndian_four, hvalue] at hread
        rw [hinfo, if_neg hnum, readLengthOrValue, if_neg (by omega), if_neg (by omega),
          if_neg (by omega), if_pos rfl]
        exact hread

/-! ## Values without parts -/

variable {stack num : ℕ}

-- there is no item in no bytes
example : decodeCbor [] decodeText (stack + 1) =
    .error (thrown "Unexpected end of CBOR input") := by
  rw [decodeCbor, read]
  rfl

theorem mod_lt_safe (num : ℕ) : num % 2 ^ 32 < 2 ^ 53 :=
  (Nat.mod_lt num (by norm_num)).trans (by norm_num)

/-- An unsigned integer. -/
theorem read_unsigned (hdata : data = before ++ (writeUint 0 num ++ behind))
    (hoffset : before.length = offset) :
    read data decodeText (stack + 1) offset =
      .ok (.number (num % 2 ^ 32 : ℕ), offset + (writeUint 0 num).length) := by
  obtain ⟨initialByte, hbyte, htype, hheader⟩ := exists_header (by omega) hdata hoffset
  have hsafe : num % 2 ^ 32 ≤ MAX_SAFE_INTEGER := Nat.le_sub_one_of_lt (mod_lt_safe num)
  rw [read, hbyte]
  simp only [htype, hheader]
  change Except.ok (ofUnsigned (num % 2 ^ 32), _) = _
  rw [ofUnsigned, if_pos hsafe]

/-- A negative integer. -/
theorem read_negative (hdata : data = before ++ (writeUint 1 num ++ behind))
    (hoffset : before.length = offset) :
    read data decodeText (stack + 1) offset =
      .ok (.number (-((num % 2 ^ 32 : ℕ) + 1)), offset + (writeUint 1 num).length) := by
  obtain ⟨initialByte, hbyte, htype, hheader⟩ := exists_header (by omega) hdata hoffset
  have hsucc : num % 2 ^ 32 + 1 < 2 ^ 53 :=
    lt_of_le_of_lt (Nat.mod_lt num (by norm_num)) (by norm_num)
  rw [read, hbyte]
  simp only [htype, hheader]
  change Except.ok (CborValue.number (-(toNumber (toNumber (num % 2 ^ 32) + 1) : ℕ)), _) = _
  rw [toNumber_of_lt (mod_lt_safe num), toNumber_of_lt hsucc]
  push_cast
  rfl

/-- The bytes that a header counts. -/
theorem readSlice_eq (kind : String) {majorType : ℕ} {bytes : Bytes}
    (hdata : data = before ++ (writeUint majorType bytes.length ++ (bytes ++ behind)))
    (hoffset : before.length = offset) :
    readSlice data kind (offset + (writeUint majorType bytes.length).length)
        (bytes.length % 2 ^ 32) =
      .ok (bytes.take (bytes.length % 2 ^ 32),
        offset + (writeUint majorType bytes.length).length + bytes.length % 2 ^ 32) := by
  have hle : bytes.length % 2 ^ 32 ≤ bytes.length := Nat.mod_le _ _
  have hdata' : data = (before ++ writeUint majorType bytes.length) ++ (bytes ++ behind) := by
    rw [hdata, List.append_assoc]
  have hoffset' : (before ++ writeUint majorType bytes.length).length =
      offset + (writeUint majorType bytes.length).length := by
    rw [List.length_append, hoffset]
  have hlength : ¬ offset + (writeUint majorType bytes.length).length + bytes.length % 2 ^ 32 >
      data.length := by
    rw [hdata', List.length_append, hoffset', List.length_append]
    omega
  rw [readSlice, if_neg hlength, subarray_behind hdata' hoffset' _ hle]

/-- A byte string. -/
theorem read_bytes {bytes : Bytes}
    (hdata : data = before ++ (writeUint 2 bytes.length ++ (bytes ++ behind)))
    (hoffset : before.length = offset) :
    read data decodeText (stack + 1) offset =
      .ok (.bytes (bytes.take (bytes.length % 2 ^ 32)),
        offset + (writeUint 2 bytes.length).length + bytes.length % 2 ^ 32) := by
  obtain ⟨initialByte, hbyte, htype, hheader⟩ := exists_header (by omega) hdata hoffset
  rw [read, hbyte]
  simp only [htype, hheader, Except.bind, bind]
  rw [toNumber_of_lt (mod_lt_safe _), readSlice_eq "byte" hdata hoffset]
  rfl

/-- A text. -/
theorem read_text {bytes : Bytes}
    (hdata : data = before ++ (writeUint 3 bytes.length ++ (bytes ++ behind)))
    (hoffset : before.length = offset) :
    read data decodeText (stack + 1) offset =
      .ok (.text (decodeText (bytes.take (bytes.length % 2 ^ 32))),
        offset + (writeUint 3 bytes.length).length + bytes.length % 2 ^ 32) := by
  obtain ⟨initialByte, hbyte, htype, hheader⟩ := exists_header (by omega) hdata hoffset
  rw [read, hbyte]
  simp only [htype, hheader, Except.bind, bind]
  rw [toNumber_of_lt (mod_lt_safe _), readSlice_eq "text" hdata hoffset]
  rfl

/-- An array is read item by item. -/
theorem read_array (hdata : data = before ++ (writeUint 4 num ++ behind))
    (hoffset : before.length = offset) :
    read data decodeText (stack + 1) offset =
      (readItems (read data decodeText stack) (num % 2 ^ 32)
        (offset + (writeUint 4 num).length)).map fun r => (.array r.1, r.2) := by
  obtain ⟨initialByte, hbyte, htype, hheader⟩ := exists_header (by omega) hdata hoffset
  rw [read, hbyte]
  simp only [htype, hheader, Except.bind, bind]
  rw [toNumber_of_lt (mod_lt_safe _)]
  cases readItems (read data decodeText stack) (num % 2 ^ 32)
    (offset + (writeUint 4 num).length) <;> rfl

/-- A map is read entry by entry. -/
theorem read_map (hdata : data = before ++ (writeUint 5 num ++ behind))
    (hoffset : before.length = offset) :
    read data decodeText (stack + 1) offset =
      (readEntries (read data decodeText stack) (num % 2 ^ 32) []
        (offset + (writeUint 5 num).length)).map fun r => (.map r.1, r.2) := by
  obtain ⟨initialByte, hbyte, htype, hheader⟩ := exists_header (by omega) hdata hoffset
  rw [read, hbyte]
  simp only [htype, hheader, Except.bind, bind]
  rw [toNumber_of_lt (mod_lt_safe _)]
  cases readEntries (read data decodeText stack) (num % 2 ^ 32) []
    (offset + (writeUint 5 num).length) <;> rfl

/-- One of the simple values. -/
theorem read_simple {byte : UInt8} {value : CborValue}
    (hdata : data = before ++ (byte :: behind)) (hoffset : before.length = offset)
    (htype : byte.toNat / 32 = 7) (hinfo : byte.toNat % 32 < 24)
    (hvalue : simpleValue (byte.toNat % 32) (byte.toNat % 32) = value) :
    read data decodeText (stack + 1) offset = .ok (value, offset + 1) := by
  have hbyte : data[offset]? = some byte := by
    rw [hdata, ← hoffset, List.getElem?_append_right le_rfl, Nat.sub_self]
    rfl
  have hheader : readLengthOrValue data (offset + 1) (byte.toNat % 32) =
      .ok (byte.toNat % 32, offset + 1) := by rw [readLengthOrValue, if_pos hinfo]
  rw [read, hbyte]
  simp only [htype, hheader, Except.bind, bind]
  rw [hvalue]
  rfl

end

/-! ## Loops -/

section

variable {readItem : ℕ → Except ThrownError (CborValue × ℕ)} {offset length next : ℕ}
  {items : List CborValue} {earlier final : List (CborValue × CborValue)}

/-- One more item. -/
theorem readItems_succ {item : CborValue} {between : ℕ}
    (hitem : readItem offset = .ok (item, between))
    (hitems : readItems readItem length between = .ok (items, next)) :
    readItems readItem (length + 1) offset = .ok (item :: items, next) := by
  rw [readItems, hitem]
  change (readItems readItem length between >>= _) = _
  rw [hitems]
  rfl

/-- The loop over items reads the first one. -/
theorem of_readItems_succ (h : readItems readItem (length + 1) offset = .ok (items, next)) :
    ∃ item between rest, readItem offset = .ok (item, between) ∧
      readItems readItem length between = .ok (rest, next) ∧ items = item :: rest := by
  rw [readItems] at h
  cases hitem : readItem offset with
  | error error =>
    rw [hitem] at h
    cases h
  | ok read =>
    obtain ⟨item, between⟩ := read
    rw [hitem] at h
    change (readItems readItem length between >>= _) = _ at h
    cases hitems : readItems readItem length between with
    | error error =>
      rw [hitems] at h
      cases h
    | ok read =>
      obtain ⟨rest, next'⟩ := read
      rw [hitems] at h
      cases h
      exact ⟨item, between, rest, rfl, hitems, rfl⟩

theorem length_of_readItems (h : readItems readItem length offset = .ok (items, next)) :
    items.length = length := by
  induction length generalizing offset items with
  | zero =>
    cases h
    rfl
  | succ length ih =>
    obtain ⟨item, between, rest, -, hitems, rfl⟩ := of_readItems_succ h
    rw [List.length_cons, ih hitems]

/-- One more entry. -/
theorem readEntries_succ {key value : CborValue} {between behind : ℕ}
    (hkey : readItem offset = .ok (key, between)) (hvalue : readItem between = .ok (value, behind))
    (hentries : readEntries readItem length (setEntry earlier key value) behind =
      .ok (final, next)) :
    readEntries readItem (length + 1) earlier offset = .ok (final, next) := by
  rw [readEntries, hkey]
  change (readItem between >>= _) = _
  rw [hvalue]
  exact hentries

/-- The loop over entries reads a key and a value. -/
theorem of_readEntries_succ
    (h : readEntries readItem (length + 1) earlier offset = .ok (final, next)) :
    ∃ key between value behind, readItem offset = .ok (key, between) ∧
      readItem between = .ok (value, behind) ∧
      readEntries readItem length (setEntry earlier key value) behind = .ok (final, next) := by
  rw [readEntries] at h
  cases hkey : readItem offset with
  | error error =>
    rw [hkey] at h
    cases h
  | ok read =>
    obtain ⟨key, between⟩ := read
    rw [hkey] at h
    change (readItem between >>= _) = _ at h
    cases hvalue : readItem between with
    | error error =>
      rw [hvalue] at h
      cases h
    | ok read =>
      obtain ⟨value, behind⟩ := read
      rw [hvalue] at h
      exact ⟨key, between, value, behind, rfl, hvalue, h⟩

/-- A new key is put at the end, and a known one keeps its place. -/
theorem setEntry_cases (earlier : List (CborValue × CborValue)) (key value : CborValue) :
    setEntry earlier key value = earlier ++ [(key, value)] ∨
      (setEntry earlier key value).length = earlier.length := by
  unfold setEntry
  split
  · exact .inr (List.length_map _)
  · exact .inl rfl

theorem length_setEntry_le (earlier : List (CborValue × CborValue)) (key value : CborValue) :
    (setEntry earlier key value).length ≤ earlier.length + 1 := by
  rcases setEntry_cases earlier key value with h | h
  · rw [h, List.length_append, List.length_singleton]
  · omega

theorem length_of_readEntries_le
    (h : readEntries readItem length earlier offset = .ok (final, next)) :
    final.length ≤ earlier.length + length := by
  induction length generalizing offset earlier with
  | zero =>
    cases h
    exact le_rfl
  | succ length ih =>
    obtain ⟨key, between, value, behind, -, -, hentries⟩ := of_readEntries_succ h
    have hrest := ih hentries
    have hset := length_setEntry_le earlier key value
    omega

/-- Entries with as many keys as were read are put behind the earlier ones. -/
theorem prefix_of_readEntries
    (h : readEntries readItem length earlier offset = .ok (final, next))
    (hlength : final.length = earlier.length + length) : earlier <+: final := by
  induction length generalizing offset earlier with
  | zero =>
    cases h
    exact List.prefix_rfl
  | succ length ih =>
    obtain ⟨key, between, value, behind, -, -, hentries⟩ := of_readEntries_succ h
    have hrest := length_of_readEntries_le hentries
    rcases setEntry_cases earlier key value with hset | hset
    · rw [hset] at hentries
      have hprefix := ih hentries (by
        rw [hlength, List.length_append, List.length_singleton]
        omega)
      exact (List.prefix_append _ _).trans hprefix
    · omega

end

/-! ## Values -/

mutual

/-- How deeply a value is nested. -/
def depth : CborValue → ℕ
  | .array items => depthItems items + 1
  | .map entries => depthEntries entries + 1
  | .number _ | .bigint _ | .bytes _ | .text _ | .boolean _ | .null | .undefined => 0

/-- Items. -/
def depthItems : List CborValue → ℕ
  | [] => 0
  | item :: items => max (depth item) (depthItems items)

/-- Entries. -/
def depthEntries : List (CborValue × CborValue) → ℕ
  | [] => 0
  | (key, value) :: entries => max (max (depth key) (depth value)) (depthEntries entries)

end

/-- The keys of a map are distinct. -/
def DistinctKeys (entries : List (CborValue × CborValue)) : Prop :=
  entries.Pairwise fun earlier later => sameKey earlier.1 later.1 = false

/-- A part that is no bigint, no integer of more than four bytes, and no map with a key twice. -/
def Encodable : CborValue → Prop
  | .number value => -2 ^ 32 ≤ value ∧ value ≤ 2 ^ 32 - 1
  | .bigint _ => False
  | .map entries => DistinctKeys entries
  | .bytes _ | .text _ | .array _ | .boolean _ | .null | .undefined => True

/-- A part that is no text with a mark at its beginning, and whose length fits four bytes. -/
def Surviving : CborValue → Prop
  | .text value => value.toList.head? ≠ some byteOrderMark ∧ (utf8 value).length < 2 ^ 32
  | .bytes value => value.length < 2 ^ 32
  | .array items => items.length < 2 ^ 32
  | .map entries => entries.length < 2 ^ 32
  | .number _ | .bigint _ | .boolean _ | .null | .undefined => True

/-! ## What survives is read back -/

/-- An integer of four bytes is read back. -/
theorem read_integer {data before behind : Bytes} {offset stack : ℕ} {value : ℤ}
    (hvalue : -2 ^ 32 ≤ value ∧ value ≤ 2 ^ 32 - 1)
    (hdata : data = before ++ (writeInteger value ++ behind)) (hoffset : before.length = offset) :
    read data decodeText (stack + 1) offset =
      .ok (.number value, offset + (writeInteger value).length) := by
  unfold writeInteger at hdata ⊢
  split at hdata
  · rename_i hpos
    have hmod : ((value.toNat % 2 ^ 32 : ℕ) : ℤ) = value := by omega
    rw [if_pos hpos, read_unsigned hdata hoffset, hmod]
  · rename_i hneg
    have hsmall : (-1 - value).toNat < 2 ^ 32 := by omega
    have hnum : toNumber (-1 - value).toNat = (-1 - value).toNat :=
      toNumber_of_lt (hsmall.trans (by norm_num))
    rw [hnum] at hdata
    have hmod : -(((-1 - value).toNat % 2 ^ 32 : ℕ) + 1 : ℤ) = value := by omega
    rw [if_neg hneg, hnum, read_negative hdata hoffset, hmod]

/-- The position behind what has been read. -/
theorem length_before {before bytes : Bytes} {offset : ℕ} (hoffset : before.length = offset) :
    (before ++ bytes).length = offset + bytes.length := by
  rw [List.length_append, hoffset]

mutual

/-- A value whose parts survive is read back, up to the end of its encoding. -/
theorem read_encoded : ∀ value : CborValue, Every Encodable value → Every Surviving value →
    ∀ {data before behind : Bytes} {offset stack : ℕ},
      data = before ++ (encoded value ++ behind) → before.length = offset → depth value < stack →
        read data decodeText stack offset = .ok (value, offset + (encoded value).length)
  | value, _, _, _, _, _, _, 0, _, _, hdepth => absurd hdepth (Nat.not_lt_zero _)
  | .number value, hvalue, _, _, _, _, _, stack + 1, hdata, hoffset, _ =>
    read_integer hvalue hdata hoffset
  | .bigint value, hvalue, _, _, _, _, _, stack + 1, _, _, _ => absurd hvalue id
  | .bytes value, _, hsurvives, _, _, _, offset, stack + 1, hdata, hoffset, _ => by
    have hdata' := hdata
    rw [encoded, List.append_assoc] at hdata'
    have hmod : value.length % 2 ^ 32 = value.length := Nat.mod_eq_of_lt hsurvives
    rw [read_bytes hdata' hoffset, hmod, List.take_length, encoded, List.length_append,
      Nat.add_assoc]
  | .text value, _, hsurvives, _, _, _, offset, stack + 1, hdata, hoffset, _ => by
    have hdata' := hdata
    rw [encoded, writeText, List.append_assoc] at hdata'
    have hmod : (utf8 value).length % 2 ^ 32 = (utf8 value).length := Nat.mod_eq_of_lt hsurvives.2
    have hback : decodeText (utf8 value) = value := (decodeText_utf8_iff value).mpr hsurvives.1
    rw [read_text hdata' hoffset, hmod, List.take_length, hback, encoded, writeText,
      List.length_append, Nat.add_assoc]
  | .array items, hvalue, hsurvives, _, _, _, offset, stack + 1, hdata, hoffset, hdepth => by
    have hdata' := hdata
    rw [encoded, List.append_assoc] at hdata'
    have hmod : items.length % 2 ^ 32 = items.length := Nat.mod_eq_of_lt hsurvives.1
    have hitems := readItems_encoded items hvalue.2 hsurvives.2
      (hdata'.trans (List.append_assoc _ _ _).symm) (length_before hoffset)
      (Nat.lt_of_succ_lt_succ hdepth)
    rw [read_array hdata' hoffset, hmod, hitems, encoded, List.length_append, ← Nat.add_assoc]
    rfl
  | .map entries, hvalue, hsurvives, _, _, _, offset, stack + 1, hdata, hoffset, hdepth => by
    have hdata' := hdata
    rw [encoded, List.append_assoc] at hdata'
    have hmod : entries.length % 2 ^ 32 = entries.length := Nat.mod_eq_of_lt hsurvives.1
    have hentries := readEntries_encoded entries [] hvalue.1 hvalue.2 hsurvives.2
      (hdata'.trans (List.append_assoc _ _ _).symm) (length_before hoffset)
      (Nat.lt_of_succ_lt_succ hdepth)
    rw [read_map hdata' hoffset, hmod, hentries, encoded, List.length_append, ← Nat.add_assoc]
    rfl
  | .boolean false, _, _, _, _, _, _, stack + 1, hdata, hoffset, _ =>
    read_simple hdata hoffset rfl (by decide) rfl
  | .boolean true, _, _, _, _, _, _, stack + 1, hdata, hoffset, _ =>
    read_simple hdata hoffset rfl (by decide) rfl
  | .null, _, _, _, _, _, _, stack + 1, hdata, hoffset, _ =>
    read_simple hdata hoffset rfl (by decide) rfl
  | .undefined, _, _, _, _, _, _, stack + 1, hdata, hoffset, _ =>
    read_simple hdata hoffset rfl (by decide) rfl

theorem readItems_encoded : ∀ items : List CborValue, EveryItem Encodable items →
    EveryItem Surviving items → ∀ {data before behind : Bytes} {offset stack : ℕ},
      data = before ++ (encodedItems items ++ behind) → before.length = offset →
        depthItems items < stack →
          readItems (read data decodeText stack) items.length offset =
            .ok (items, offset + (encodedItems items).length)
  | [], _, _, _, _, _, _, _, _, _, _ => rfl
  | item :: items, hvalue, hsurvives, data, before, behind, offset, stack, hdata, hoffset,
      hdepth => by
    have hdata' : data = before ++ (encoded item ++ (encodedItems items ++ behind)) := by
      rw [hdata, encodedItems, List.append_assoc]
    have hitem := read_encoded item hvalue.1 hsurvives.1 hdata' hoffset
      (lt_of_le_of_lt (le_max_left _ _) hdepth)
    have hitems := readItems_encoded items hvalue.2 hsurvives.2
      (hdata'.trans (List.append_assoc _ _ _).symm) (length_before hoffset)
      (lt_of_le_of_lt (le_max_right _ _) hdepth)
    rw [List.length_cons, readItems_succ hitem hitems, encodedItems, List.length_append,
      Nat.add_assoc]

theorem readEntries_encoded : ∀ entries earlier : List (CborValue × CborValue),
    DistinctKeys (earlier ++ entries) → EveryEntry Encodable entries →
      EveryEntry Surviving entries → ∀ {data before behind : Bytes} {offset stack : ℕ},
        data = before ++ (encodedEntries entries ++ behind) → before.length = offset →
          depthEntries entries < stack →
            readEntries (read data decodeText stack) entries.length earlier offset =
              .ok (earlier ++ entries, offset + (encodedEntries entries).length)
  | [], earlier, _, _, _, _, _, _, _, _, _, _, _ => by
    rw [List.append_nil]
    rfl
  | (key, value) :: entries, earlier, hdistinct, hvalue, hsurvives, data, before, behind, offset,
      stack, hdata, hoffset, hdepth => by
    have hdata' : data =
        before ++ (encoded key ++ (encoded value ++ (encodedEntries entries ++ behind))) := by
      rw [hdata, encodedEntries, List.append_assoc, List.append_assoc]
    have hkey := read_encoded key hvalue.1 hsurvives.1 hdata' hoffset
      (lt_of_le_of_lt ((le_max_left _ _).trans (le_max_left _ _)) hdepth)
    have hdata'' := hdata'.trans (List.append_assoc _ _ _).symm
    have hread := read_encoded value hvalue.2.1 hsurvives.2.1 hdata'' (length_before hoffset)
      (lt_of_le_of_lt ((le_max_right _ _).trans (le_max_left _ _)) hdepth)
    have hnew : setEntry earlier key value = earlier ++ [(key, value)] := by
      refine if_neg fun hknown => ?_
      obtain ⟨entry, hmem, hsame⟩ := List.any_eq_true.mp hknown
      have hother := (List.pairwise_append.mp hdistinct).2.2 entry hmem (key, value) (by simp)
      rw [hother] at hsame
      cases hsame
    have hentries := readEntries_encoded entries (earlier ++ [(key, value)])
      (by rwa [List.append_assoc]) hvalue.2.2 hsurvives.2.2
      (hdata''.trans (List.append_assoc _ _ _).symm) (length_before (length_before hoffset))
      (lt_of_le_of_lt (le_max_right _ _) hdepth)
    rw [List.append_assoc] at hentries
    rw [List.length_cons, readEntries_succ hkey hread (by rw [hnew]; exact hentries),
      encodedEntries, List.length_append, List.length_append, Nat.add_assoc, Nat.add_assoc]
    rfl

end

/-! ## What is read back survives -/

/-- What is read and then changed has been read. -/
theorem exists_of_map_eq_ok {α β : Type} {result : Except ThrownError α} {f : α → β} {b : β}
    (h : result.map f = .ok b) : ∃ a, result = .ok a ∧ f a = b := by
  cases result with
  | error error => cases h
  | ok a => exact ⟨a, rfl, Except.ok.inj h⟩

/-- What has been read back lies where the reader goes on. -/
theorem next_of_read {value : CborValue} {data before behind : Bytes} {offset stack next : ℕ}
    (hvalue : Every Encodable value) (hsurvives : Every Surviving value)
    (hdata : data = before ++ (encoded value ++ behind)) (hoffset : before.length = offset)
    (hdepth : depth value < stack)
    (h : read data decodeText stack offset = .ok (value, next)) :
    next = offset + (encoded value).length := by
  rw [read_encoded value hvalue hsurvives hdata hoffset hdepth] at h
  cases h
  rfl

mutual

/-- Only a value whose parts survive is read back. -/
theorem surviving_of_read : ∀ value : CborValue, Every Encodable value →
    ∀ {data before behind : Bytes} {offset stack next : ℕ},
      data = before ++ (encoded value ++ behind) → before.length = offset → depth value < stack →
        read data decodeText stack offset = .ok (value, next) → Every Surviving value
  | value, _, _, _, _, _, 0, _, _, _, hdepth, _ => absurd hdepth (Nat.not_lt_zero _)
  | .bytes value, _, _, _, _, offset, stack + 1, next, hdata, hoffset, _, h => by
    have hdata' := hdata
    rw [encoded, List.append_assoc] at hdata'
    rw [read_bytes hdata' hoffset] at h
    have hsame : value.take (value.length % 2 ^ 32) = value :=
      CborValue.bytes.inj (Prod.mk.inj (Except.ok.inj h)).1
    have hle : value.length ≤ value.length % 2 ^ 32 := List.take_eq_self_iff value |>.mp hsame
    exact lt_of_le_of_lt hle (Nat.mod_lt _ (by norm_num))
  | .text value, _, _, _, _, offset, stack + 1, next, hdata, hoffset, _, h => by
    have hdata' := hdata
    rw [encoded, writeText, List.append_assoc] at hdata'
    rw [read_text hdata' hoffset] at h
    have hsame : decodeText ((utf8 value).take ((utf8 value).length % 2 ^ 32)) = value :=
      CborValue.text.inj (Prod.mk.inj (Except.ok.inj h)).1
    have hsmall : (utf8 value).length < 2 ^ 32 := by
      by_contra hlarge
      refine decodeText_take_ne ?_ hsame
      omega
    rw [Nat.mod_eq_of_lt hsmall, List.take_length] at hsame
    exact ⟨(decodeText_utf8_iff value).mp hsame, hsmall⟩
  | .array items, hvalue, _, _, _, offset, stack + 1, next, hdata, hoffset, hdepth, h => by
    have hdata' := hdata
    rw [encoded, List.append_assoc] at hdata'
    rw [read_array hdata' hoffset] at h
    obtain ⟨⟨items', next'⟩, hitems, hsame⟩ := exists_of_map_eq_ok h
    have hback : items' = items := CborValue.array.inj (Prod.mk.inj hsame).1
    rw [hback] at hitems
    have hlength := length_of_readItems hitems
    have hsmall : items.length < 2 ^ 32 := by
      rw [hlength]
      exact Nat.mod_lt _ (by norm_num)
    rw [← hlength] at hitems
    exact ⟨hsmall, surviving_of_readItems items hvalue.2
      (hdata'.trans (List.append_assoc _ _ _).symm) (length_before hoffset)
      (Nat.lt_of_succ_lt_succ hdepth) hitems⟩
  | .map entries, hvalue, _, _, _, offset, stack + 1, next, hdata, hoffset, hdepth, h => by
    have hdata' := hdata
    rw [encoded, List.append_assoc] at hdata'
    rw [read_map hdata' hoffset] at h
    obtain ⟨⟨entries', next'⟩, hentries, hsame⟩ := exists_of_map_eq_ok h
    have hback : entries' = entries := CborValue.map.inj (Prod.mk.inj hsame).1
    rw [hback] at hentries
    have hlength := length_of_readEntries_le hentries
    rw [List.length_nil, Nat.zero_add] at hlength
    have hsmall : entries.length < 2 ^ 32 := lt_of_le_of_lt hlength (Nat.mod_lt _ (by norm_num))
    rw [Nat.mod_eq_of_lt hsmall] at hentries
    exact ⟨hsmall, surviving_of_readEntries entries [] hvalue.2
      (hdata'.trans (List.append_assoc _ _ _).symm) (length_before hoffset)
      (Nat.lt_of_succ_lt_succ hdepth) hentries⟩
  | .number _, _, _, _, _, _, _ + 1, _, _, _, _, _ => trivial
  | .bigint _, _, _, _, _, _, _ + 1, _, _, _, _, _ => trivial
  | .boolean _, _, _, _, _, _, _ + 1, _, _, _, _, _ => trivial
  | .null, _, _, _, _, _, _ + 1, _, _, _, _, _ => trivial
  | .undefined, _, _, _, _, _, _ + 1, _, _, _, _, _ => trivial

theorem surviving_of_readItems : ∀ items : List CborValue, EveryItem Encodable items →
    ∀ {data before behind : Bytes} {offset stack next : ℕ},
      data = before ++ (encodedItems items ++ behind) → before.length = offset →
        depthItems items < stack →
          readItems (read data decodeText stack) items.length offset = .ok (items, next) →
            EveryItem Surviving items
  | [], _, _, _, _, _, _, _, _, _, _, _ => trivial
  | item :: items, hvalue, data, before, behind, offset, stack, next, hdata, hoffset, hdepth,
      h => by
    have hdata' : data = before ++ (encoded item ++ (encodedItems items ++ behind)) := by
      rw [hdata, encodedItems, List.append_assoc]
    obtain ⟨item', between, items', hitem, hitems, hsame⟩ := of_readItems_succ h
    cases hsame
    have hdepthItem := lt_of_le_of_lt (le_max_left _ _) hdepth
    have hsurvives := surviving_of_read item hvalue.1 hdata' hoffset hdepthItem hitem
    rw [next_of_read hvalue.1 hsurvives hdata' hoffset hdepthItem hitem] at hitems
    exact ⟨hsurvives, surviving_of_readItems items hvalue.2
      (hdata'.trans (List.append_assoc _ _ _).symm) (length_before hoffset)
      (lt_of_le_of_lt (le_max_right _ _) hdepth) hitems⟩

theorem surviving_of_readEntries : ∀ entries earlier : List (CborValue × CborValue),
    EveryEntry Encodable entries → ∀ {data before behind : Bytes} {offset stack next : ℕ},
      data = before ++ (encodedEntries entries ++ behind) → before.length = offset →
        depthEntries entries < stack →
          readEntries (read data decodeText stack) entries.length earlier offset =
              .ok (earlier ++ entries, next) →
            EveryEntry Surviving entries
  | [], _, _, _, _, _, _, _, _, _, _, _, _ => trivial
  | (key, value) :: entries, earlier, hvalue, data, before, behind, offset, stack, next, hdata,
      hoffset, hdepth, h => by
    have hdata' : data =
        before ++ (encoded key ++ (encoded value ++ (encodedEntries entries ++ behind))) := by
      rw [hdata, encodedEntries, List.append_assoc, List.append_assoc]
    have hdata'' := hdata'.trans (List.append_assoc _ _ _).symm
    obtain ⟨key', between, value', after, hkey, hread, hentries⟩ := of_readEntries_succ h
    -- as many entries as were read: this one was put behind the earlier ones
    have hnew : setEntry earlier key' value' = earlier ++ [(key', value')] := by
      rcases setEntry_cases earlier key' value' with hset | hset
      · exact hset
      · have hlength := length_of_readEntries_le hentries
        rw [List.length_append, List.length_cons, hset] at hlength
        omega
    rw [hnew] at hentries
    obtain ⟨rest, hrest⟩ := prefix_of_readEntries hentries (by
      rw [List.length_append, List.length_append, List.length_cons, List.length_singleton]
      omega)
    rw [List.append_assoc] at hrest
    have hsame := List.append_cancel_left hrest
    rw [List.singleton_append] at hsame
    obtain ⟨hpair, rfl⟩ := List.cons.inj hsame
    cases hpair
    have hdepthKey := lt_of_le_of_lt ((le_max_left _ _).trans (le_max_left _ _)) hdepth
    have hsurvivesKey := surviving_of_read key hvalue.1 hdata' hoffset hdepthKey hkey
    rw [next_of_read hvalue.1 hsurvivesKey hdata' hoffset hdepthKey hkey] at hread
    have hdepthValue := lt_of_le_of_lt ((le_max_right _ _).trans (le_max_left _ _)) hdepth
    have hsurvives := surviving_of_read value hvalue.2.1 hdata'' (length_before hoffset)
      hdepthValue hread
    rw [next_of_read hvalue.2.1 hsurvives hdata'' (length_before hoffset) hdepthValue hread]
      at hentries
    refine ⟨hsurvivesKey, hsurvives, ?_⟩
    exact surviving_of_readEntries rest (earlier ++ [(key, value)]) hvalue.2.2
      (hdata''.trans (List.append_assoc _ _ _).symm) (length_before (length_before hoffset))
      (lt_of_le_of_lt (le_max_right _ _) hdepth) (by rw [List.append_assoc]; exact hentries)

end

/-! ## The round trip -/

mutual

/-- What is encodable has no bigints. -/
theorem noBigint_of_encodable : ∀ value : CborValue, Every Encodable value → Every NoBigint value
  | .array items, h => ⟨trivial, noBigint_of_encodableItems items h.2⟩
  | .map entries, h => ⟨trivial, noBigint_of_encodableEntries entries h.2⟩
  | .bigint _, h => absurd h id
  | .number _, _ | .bytes _, _ | .text _, _ | .boolean _, _ | .null, _ | .undefined, _ => trivial

theorem noBigint_of_encodableItems :
    ∀ items : List CborValue, EveryItem Encodable items → EveryItem NoBigint items
  | [], _ => trivial
  | item :: items, h => ⟨noBigint_of_encodable item h.1, noBigint_of_encodableItems items h.2⟩

theorem noBigint_of_encodableEntries : ∀ entries : List (CborValue × CborValue),
    EveryEntry Encodable entries → EveryEntry NoBigint entries
  | [], _ => trivial
  | (key, value) :: entries, h =>
    ⟨noBigint_of_encodable key h.1, noBigint_of_encodable value h.2.1,
      noBigint_of_encodableEntries entries h.2.2⟩

end

/-- The encoder writes a value so that the reader returns it and stops behind it, whatever follows
and with a stack that is deep enough. -/
def RoundTrips (value : CborValue) : Prop :=
  ∃ written, encodeCbor (toInput value) = .ok written ∧
    ∀ (suffix : Bytes) (stack : ℕ), depth value < stack →
      read (written ++ suffix) decodeText stack 0 = .ok (value, written.length)

/-- A text of nothing but a mark. -/
def markText : CborValue := .text (String.singleton byteOrderMark)

/-- A map like those of attestation objects: with a text, a negative integer and a byte string. -/
def sampleMap : CborValue :=
  .map [(.text "fmt", .text "none"), (.number 3, .number (-7)),
    (.text "authData", .array [.bytes [1, 2, 3], .boolean true, .null])]

/-- A value is read back, with anything behind its encoding, exactly when no text in it begins with
a byte order mark and no length in it is 2^32 or more. -/
theorem cbor_round_trip_iff (value : CborValue) (h : Every Encodable value) :
    RoundTrips value ↔ Every Surviving value := by
  have hwritten : encodeCbor (toInput value) = .ok (encoded value) :=
    write_toInput value (noBigint_of_encodable value h)
  constructor
  · rintro ⟨written, hsame, hread⟩
    rw [hwritten] at hsame
    cases hsame
    exact surviving_of_read value h (List.nil_append _).symm rfl (Nat.lt_succ_self _)
      (hread [] (depth value + 1) (Nat.lt_succ_self _))
  · intro hsurvives
    refine ⟨encoded value, hwritten, fun suffix stack hdepth => ?_⟩
    have hread : read (encoded value ++ suffix) decodeText stack 0 =
        .ok (value, 0 + (encoded value).length) :=
      read_encoded value h hsurvives (List.nil_append _).symm rfl hdepth
    rwa [Nat.zero_add] at hread

theorem sampleMap_encodable : Every Encodable sampleMap := by
  simp [sampleMap, Every, EveryItem, EveryEntry, Encodable, DistinctKeys, sameKey]

theorem sampleMap_surviving : Every Surviving sampleMap := by
  simp only [sampleMap, Every, EveryItem, EveryEntry, Surviving, and_true, true_and]
  decide +kernel

/-- The map is read back. -/
theorem cbor_round_trip_iff_sample : RoundTrips sampleMap :=
  (cbor_round_trip_iff sampleMap sampleMap_encodable).mpr sampleMap_surviving

/-- The text of nothing but a mark is read as the empty text. -/
theorem mark_not_read_back :
    ¬ ∀ value : CborValue, Every Encodable value → RoundTrips value := by
  intro h
  obtain ⟨written, hwritten, hread⟩ := h markText trivial
  have hsame : encodeCbor (toInput markText) = .ok (encoded markText) :=
    write_toInput markText trivial
  rw [hsame] at hwritten
  cases hwritten
  have hsurvives : Every Surviving markText :=
    surviving_of_read markText trivial (List.nil_append _).symm rfl Nat.zero_lt_one
      (hread [] 1 Nat.zero_lt_one)
  exact hsurvives.1 rfl

end Verixa.Mfa.Cbor
