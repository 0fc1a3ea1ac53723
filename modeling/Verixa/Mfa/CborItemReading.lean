import Verixa.Encoding.CborItem
import Verixa.Mfa.CborReaderBounds

/-!
# Items and what is read of them

The bytes that the reader consumes for a value are those of an item with counts that are right, and
what it returns is a function of this item (`item_of_read`); every such item at an offset is read
(`read_item`), provided that the stack is deep enough.
-/

namespace Verixa.Mfa.Cbor

open Encoding CborItem

/-- No number from 2^53 on is rounded to one below. -/
theorem le_toNumber {n : ℕ} (h : 2 ^ 53 ≤ n) : 2 ^ 53 ≤ toNumber n := by
  have hpos : n ≠ 0 := by omega
  have hlog : 53 ≤ Nat.log2 n := (Nat.le_log2 hpos).mpr h
  have hself : 2 ^ Nat.log2 n ≤ n := Nat.log2_self_le hpos
  have hunit : 2 ^ Nat.log2 n = 2 ^ 52 * 2 ^ (Nat.log2 n - 52) := by
    rw [← pow_add]
    congr 1
    omega
  have hbelow : 2 ^ 52 ≤ n / 2 ^ (Nat.log2 n - 52) := by
    rw [Nat.le_div_iff_mul_le (Nat.two_pow_pos _), ← hunit]
    exact hself
  have hlower : 2 ^ 53 ≤ n / 2 ^ (Nat.log2 n - 52) * 2 ^ (Nat.log2 n - 52) := by
    have hmul := Nat.mul_le_mul_right (2 ^ (Nat.log2 n - 52)) hbelow
    have hpower : 2 ^ 53 ≤ 2 ^ Nat.log2 n := Nat.pow_le_pow_right Nat.two_pos hlog
    omega
  unfold toNumber
  dsimp only
  split
  · have hmore := Nat.mul_le_mul_right (2 ^ (Nat.log2 n - 52))
      (Nat.le_succ (n / 2 ^ (Nat.log2 n - 52)))
    exact hlower.trans hmore
  · exact hlower

/-- A number that is rounded below 2^53 was not changed. -/
theorem toNumber_eq_of_lt {n : ℕ} (h : toNumber n < 2 ^ 53) : toNumber n = n := by
  refine toNumber_of_lt ?_
  by_contra hlarge
  have hle := le_toNumber (Nat.le_of_not_lt hlarge)
  omega

section Value

variable (decodeText : Bytes → String)

mutual

/-- What the reader makes of an item. -/
def readerValue : CborItem → CborValue
  | .unsigned argument => ofUnsigned argument.value
  | .negative argument => .number (-(toNumber (toNumber argument.value + 1)))
  | .bytes _ content => .bytes content
  | .text _ content => .text (decodeText content)
  | .array _ items => .array (readerValues items)
  | .map _ entries => .map (readerEntries entries [])
  | .tag _ item => readerValue item
  | .special argument => simpleValue argument.info argument.value

/-- Items. -/
def readerValues : List CborItem → List CborValue
  | [] => []
  | item :: items => readerValue item :: readerValues items

/-- Entries, which are put among earlier ones. -/
def readerEntries :
    List (CborItem × CborItem) → List (CborValue × CborValue) → List (CborValue × CborValue)
  | [], earlier => earlier
  | (key, value) :: entries, earlier =>
    readerEntries entries (setEntry earlier (readerValue key) (readerValue value))

end

end Value

/-! ## Items are read -/

section

variable {data rest : Bytes} {decodeText : Bytes → String} {offset stack : ℕ}

/-- The bytes behind a part. -/
theorem drop_behind {part : Bytes} (h : data.drop offset = part ++ rest) :
    data.drop (offset + part.length) = rest := by
  rw [← List.drop_drop, h, List.drop_left]

/-- A part lies within the data. -/
theorem length_le_of_drop {part : Bytes} (h : data.drop offset = part ++ rest)
    (hpart : part ≠ []) : offset + part.length ≤ data.length := by
  have hlength := congrArg List.length h
  have hpos : 0 < part.length := List.length_pos_iff.mpr hpart
  rw [List.length_drop, List.length_append] at hlength
  omega

theorem subarray_of_drop {part : Bytes} (h : data.drop offset = part ++ rest) :
    subarray data offset (offset + part.length) = part := by
  rw [subarray, List.drop_take, h, Nat.add_sub_cancel_left, List.take_left]

/-- The head of an item is read. -/
theorem header_of_drop {m : ℕ} {argument : Argument} (hm : m < 8)
    (h : data.drop offset = head m argument ++ rest) :
    header data offset =
      .ok (m, argument.info, argument.value, offset + (head m argument).length) := by
  obtain ⟨info, following, hinfo, hlength⟩ := argument
  have hbyte : data[offset]? = some (UInt8.ofNat (m * 32 + info)) := by
    have hfirst := congrArg (fun bytes : Bytes => bytes[0]?) h
    simpa [head] using hfirst
  have hvalue : (UInt8.ofNat (m * 32 + info)).toNat = m * 32 + info := Utf8.toNat_byte (by omega)
  have hmajor : (m * 32 + info) / 32 = m := by omega
  have hlow : (m * 32 + info) % 32 = info := by omega
  rw [header, hbyte]
  simp only [hvalue, hmajor, hlow]
  rw [readLengthOrValue_eq]
  unfold width at hlength
  by_cases hsmall : info < 24
  · rw [if_pos hsmall] at hlength
    rw [if_pos hsmall, Argument.value, if_pos hsmall, head, List.length_cons, hlength]
    rfl
  · rw [if_neg hsmall] at hlength
    have hbehind : data.drop (offset + 1) = following ++ rest :=
      @drop_behind _ _ _ [UInt8.ofNat (m * 32 + info)] h
    have hsome : following ≠ [] := by
      intro hnil
      rw [hnil] at hlength
      exact absurd hlength.symm (Nat.two_pow_pos _).ne'
    have hbound := length_le_of_drop hbehind hsome
    rw [if_neg hsmall, if_pos hinfo, ← hlength, readNumber, if_neg (by omega),
      subarray_of_drop hbehind, Argument.value, if_neg hsmall, head, List.length_cons]
    have hoffset : offset + 1 + following.length = offset + (following.length + 1) := by omega
    rw [hoffset]
    rfl

/-- The content of a string is read. -/
theorem readSlice_of_drop (kind : String) {content : Bytes}
    (hoffset : offset ≤ data.length) (h : data.drop offset = content ++ rest) :
    readSlice data kind offset content.length = .ok (content, offset + content.length) := by
  have hbound : offset + content.length ≤ data.length := by
    have hlength := congrArg List.length h
    rw [List.length_drop, List.length_append] at hlength
    omega
  rw [readSlice, if_neg (by omega), subarray_of_drop h]

/-- A head is never empty, so what stands behind it lies within the data. -/
theorem behind_head {m : ℕ} {argument : Argument} (h : data.drop offset = head m argument ++ rest) :
    data.drop (offset + (head m argument).length) = rest ∧
      offset + (head m argument).length ≤ data.length :=
  ⟨drop_behind h, length_le_of_drop h (List.cons_ne_nil _ _)⟩

/-- A part of the data has fewer than 2^53 bytes, as all of it. -/
theorem toNumber_of_part {n : ℕ} {part : Bytes} (hdata : data.length < 2 ^ 53)
    (h : data.drop offset = part ++ rest) (hn : n ≤ part.length) : toNumber n = n := by
  have hlength := congrArg List.length h
  rw [List.length_drop, List.length_append] at hlength
  exact toNumber_of_lt (by omega)

theorem length_le_itemsToBytes (items : List CborItem) :
    items.length ≤ (itemsToBytes items).length := by
  induction items with
  | nil => exact le_rfl
  | cons item items ih =>
    have hpos := List.length_pos_iff.mpr (toBytes_ne_nil item)
    rw [itemsToBytes, List.length_append, List.length_cons]
    omega

theorem length_le_entriesToBytes (entries : List (CborItem × CborItem)) :
    entries.length ≤ (entriesToBytes entries).length := by
  induction entries with
  | nil => exact le_rfl
  | cons entry entries ih =>
    have hpos := List.length_pos_iff.mpr (toBytes_ne_nil entry.1)
    rw [entriesToBytes, List.length_append, List.length_append, List.length_cons]
    omega

/-- The content of a string is read, as its argument counts it. -/
theorem readSlice_of_count (kind : String) {majorType : ℕ} {argument : Argument} {content : Bytes}
    (hcount : argument.value = content.length) (hlength : data.length < 2 ^ 53)
    (h : data.drop offset = head majorType argument ++ (content ++ rest)) :
    readSlice data kind (offset + (head majorType argument).length) (toNumber argument.value) =
      .ok (content, offset + (head majorType argument ++ content).length) := by
  obtain ⟨hbehind, hbound⟩ := behind_head h
  have hnumber : toNumber argument.value = content.length := by
    rw [hcount]
    exact toNumber_of_part hlength hbehind le_rfl
  rw [hnumber, readSlice_of_drop kind hbound hbehind, List.length_append, Nat.add_assoc]

mutual

/-- An item whose counts are right is read, with a stack that is deep enough. -/
theorem read_item : ∀ item : CborItem, Counted item → ∀ {data rest : Bytes} {offset stack : ℕ},
    data.length < 2 ^ 53 → data.drop offset = toBytes item ++ rest → item.depth < stack →
      read data decodeText stack offset =
        .ok (readerValue decodeText item, offset + (toBytes item).length)
  | item, _, _, _, _, 0, _, _, hdepth => absurd hdepth (Nat.not_lt_zero _)
  | .unsigned argument, _, _, _, _, stack + 1, _, hdata, _ =>
    read_eq_ok_iff.mpr ⟨_, _, _, _, header_of_drop (by decide) hdata, .unsigned⟩
  | .negative argument, _, _, _, _, stack + 1, _, hdata, _ =>
    read_eq_ok_iff.mpr ⟨_, _, _, _, header_of_drop (by decide) hdata, .negative⟩
  | .special argument, _, _, _, _, stack + 1, _, hdata, _ =>
    read_eq_ok_iff.mpr ⟨_, _, _, _, header_of_drop (by decide) hdata, .special⟩
  | .bytes argument content, hcounted, _, _, _, stack + 1, hlength, hdata, _ => by
    rw [toBytes, List.append_assoc] at hdata
    have hslice := readSlice_of_count "byte" hcounted hlength hdata
    exact read_eq_ok_iff.mpr ⟨_, _, _, _, header_of_drop (by decide) hdata, .bytes hslice⟩
  | .text argument content, hcounted, _, _, _, stack + 1, hlength, hdata, _ => by
    rw [toBytes, List.append_assoc] at hdata
    have hslice := readSlice_of_count "text" hcounted hlength hdata
    exact read_eq_ok_iff.mpr ⟨_, _, _, _, header_of_drop (by decide) hdata, .text hslice⟩
  | .array argument items, hcounted, _, _, _, stack + 1, hlength, hdata, hdepth => by
    rw [toBytes, List.append_assoc] at hdata
    obtain ⟨hbehind, -⟩ := behind_head hdata
    have hnumber : toNumber argument.value = items.length := by
      rw [hcounted.1]
      exact toNumber_of_part hlength hbehind (length_le_itemsToBytes items)
    have hitems := readItems_items items hcounted.2 hlength hbehind (Nat.lt_of_succ_lt_succ hdepth)
    rw [← hnumber, Nat.add_assoc, ← List.length_append] at hitems
    exact read_eq_ok_iff.mpr ⟨_, _, _, _, header_of_drop (by decide) hdata, .array hitems⟩
  | .map argument entries, hcounted, _, _, _, stack + 1, hlength, hdata, hdepth => by
    rw [toBytes, List.append_assoc] at hdata
    obtain ⟨hbehind, -⟩ := behind_head hdata
    have hnumber : toNumber argument.value = entries.length := by
      rw [hcounted.1]
      exact toNumber_of_part hlength hbehind (length_le_entriesToBytes entries)
    have hentries := readEntries_items entries [] hcounted.2 hlength hbehind
      (Nat.lt_of_succ_lt_succ hdepth)
    rw [← hnumber, Nat.add_assoc, ← List.length_append] at hentries
    exact read_eq_ok_iff.mpr ⟨_, _, _, _, header_of_drop (by decide) hdata, .map hentries⟩
  | .tag argument item, hcounted, _, _, _, stack + 1, hlength, hdata, hdepth => by
    rw [toBytes, List.append_assoc] at hdata
    obtain ⟨hbehind, -⟩ := behind_head hdata
    have hitem := read_item item hcounted hlength hbehind (Nat.lt_of_succ_lt_succ hdepth)
    rw [Nat.add_assoc, ← List.length_append] at hitem
    exact read_eq_ok_iff.mpr ⟨_, _, _, _, header_of_drop (by decide) hdata, .tag hitem⟩

theorem readItems_items : ∀ items : List CborItem, CountedItems items →
    ∀ {data rest : Bytes} {offset stack : ℕ}, data.length < 2 ^ 53 →
      data.drop offset = itemsToBytes items ++ rest → CborItem.depthItems items < stack →
        readItems (read data decodeText stack) items.length offset =
          .ok (readerValues decodeText items, offset + (itemsToBytes items).length)
  | [], _, _, _, _, _, _, _, _ => rfl
  | item :: items, hcounted, _, _, _, _, hlength, hdata, hdepth => by
    rw [itemsToBytes, List.append_assoc] at hdata
    have hitem := read_item item hcounted.1 hlength hdata
      (lt_of_le_of_lt (le_max_left _ _) hdepth)
    have hitems := readItems_items items hcounted.2 hlength (drop_behind hdata)
      (lt_of_le_of_lt (le_max_right _ _) hdepth)
    rw [List.length_cons, readItems_succ hitem hitems, itemsToBytes, List.length_append,
      Nat.add_assoc]
    rfl

theorem readEntries_items : ∀ (entries : List (CborItem × CborItem))
    (earlier : List (CborValue × CborValue)), CountedEntries entries →
      ∀ {data rest : Bytes} {offset stack : ℕ}, data.length < 2 ^ 53 →
        data.drop offset = entriesToBytes entries ++ rest → CborItem.depthEntries entries < stack →
          readEntries (read data decodeText stack) entries.length earlier offset =
            .ok (readerEntries decodeText entries earlier,
              offset + (entriesToBytes entries).length)
  | [], _, _, _, _, _, _, _, _, _ => rfl
  | (key, value) :: entries, earlier, hcounted, _, _, _, _, hlength, hdata, hdepth => by
    rw [entriesToBytes, List.append_assoc, List.append_assoc] at hdata
    have hkey := read_item key hcounted.1 hlength hdata
      (lt_of_le_of_lt ((le_max_left _ _).trans (le_max_left _ _)) hdepth)
    have hbehind := drop_behind hdata
    have hvalue := read_item value hcounted.2.1 hlength hbehind
      (lt_of_le_of_lt ((le_max_right _ _).trans (le_max_left _ _)) hdepth)
    have hentries := readEntries_items entries
      (setEntry earlier (readerValue decodeText key) (readerValue decodeText value)) hcounted.2.2
      hlength (drop_behind hbehind) (lt_of_le_of_lt (le_max_right _ _) hdepth)
    rw [List.length_cons, readEntries_succ hkey hvalue hentries, entriesToBytes,
      List.length_append, List.length_append, Nat.add_assoc, Nat.add_assoc]
    rfl

end

/-! ## What is read is an item -/

theorem drop_eq_subarray {start stop : ℕ} (h : start ≤ stop) :
    data.drop start = subarray data start stop ++ data.drop stop := by
  have hsplit := List.take_append_drop (stop - start) (data.drop start)
  rw [List.drop_drop, Nat.add_sub_cancel' h] at hsplit
  rw [subarray, List.drop_take, hsplit]

/-- A header that is read is the head of an item. -/
theorem head_of_header {m info value next : ℕ}
    (h : header data offset = .ok (m, info, value, next)) :
    ∃ argument : Argument, m < 8 ∧ argument.info = info ∧ argument.value = value ∧
      data.drop offset = head m argument ++ data.drop next := by
  rw [header] at h
  cases hbyte : data[offset]? with
  | none =>
    rw [hbyte] at h
    cases h
  | some initialByte =>
    rw [hbyte] at h
    obtain ⟨⟨number, after⟩, hvalue, hreturn⟩ := bind_eq_ok h
    cases hreturn
    have hsize := initialByte.toNat_lt
    have hinitial : UInt8.ofNat (initialByte.toNat / 32 * 32 + initialByte.toNat % 32) =
        initialByte := by
      rw [Nat.div_add_mod', UInt8.ofNat_toNat]
    have hfirst : data.drop offset = initialByte :: data.drop (offset + 1) := by
      obtain ⟨hlt, hget⟩ := List.getElem?_eq_some_iff.mp hbyte
      rw [List.drop_eq_getElem_cons hlt, hget]
    rcases readLengthOrValue_cases hvalue with ⟨hinfo, rfl, rfl⟩ | ⟨hsmall, hlarge, hread⟩
    · refine ⟨⟨initialByte.toNat % 32, [], by omega, ?_⟩, by omega, rfl, ?_, ?_⟩
      · rw [width, if_pos hinfo]
        rfl
      · exact if_pos hinfo
      · rw [head, hinitial, hfirst]
        rfl
    · obtain ⟨rfl, hbound⟩ := readNumber_bounds hread
      have hwidth : width (initialByte.toNat % 32) = 2 ^ (initialByte.toNat % 32 - 24) :=
        if_neg (by omega)
      have hnumber : bigEndian (subarray data (offset + 1)
          (offset + 1 + 2 ^ (initialByte.toNat % 32 - 24))) = value := by
        rw [readNumber, if_neg (by omega)] at hread
        exact (Prod.mk.inj (Except.ok.inj hread)).1
      refine ⟨⟨initialByte.toNat % 32, subarray data (offset + 1)
        (offset + 1 + 2 ^ (initialByte.toNat % 32 - 24)), hlarge, ?_⟩, by omega, rfl, ?_, ?_⟩
      · rw [length_subarray, hwidth]
        omega
      · have hlow : ¬initialByte.toNat % 32 < 24 := by omega
        exact (if_neg hlow).trans hnumber
      · rw [head, hinitial, hfirst, drop_eq_subarray (Nat.le_add_right (offset + 1) _),
          List.cons_append]

/-- A reader of items that reads items whose counts are right. -/
def ReadsItems (data : Bytes) (decodeText : Bytes → String)
    (readItem : ℕ → Except ThrownError (CborValue × ℕ)) : Prop :=
  ∀ offset value next, readItem offset = .ok (value, next) →
    ∃ item : CborItem, Counted item ∧ readerValue decodeText item = value ∧
      data.drop offset = toBytes item ++ data.drop next

variable {readItem : ℕ → Except ThrownError (CborValue × ℕ)} {next length : ℕ}

theorem ReadsItems.readItems {values : List CborValue}
    (hitem : ReadsItems data decodeText readItem)
    (h : readItems readItem length offset = .ok (values, next)) :
    ∃ items : List CborItem, items.length = length ∧ CountedItems items ∧
      readerValues decodeText items = values ∧
      data.drop offset = itemsToBytes items ++ data.drop next := by
  induction length generalizing offset values with
  | zero =>
    cases h
    exact ⟨[], rfl, trivial, rfl, rfl⟩
  | succ length ih =>
    obtain ⟨value, between, rest, hfirst, hrest, rfl⟩ := of_readItems_succ h
    obtain ⟨item, hcounted, rfl, hdata⟩ := hitem _ _ _ hfirst
    obtain ⟨items, rfl, hcounteds, rfl, hdatas⟩ := ih hrest
    refine ⟨item :: items, rfl, ⟨hcounted, hcounteds⟩, rfl, ?_⟩
    rw [hdata, hdatas, itemsToBytes, List.append_assoc]

theorem ReadsItems.readEntries {earlier final : List (CborValue × CborValue)}
    (hitem : ReadsItems data decodeText readItem)
    (h : readEntries readItem length earlier offset = .ok (final, next)) :
    ∃ entries : List (CborItem × CborItem), entries.length = length ∧ CountedEntries entries ∧
      readerEntries decodeText entries earlier = final ∧
      data.drop offset = entriesToBytes entries ++ data.drop next := by
  induction length generalizing offset earlier with
  | zero =>
    cases h
    exact ⟨[], rfl, trivial, rfl, rfl⟩
  | succ length ih =>
    obtain ⟨key, between, value, behind, hkey, hvalue, hrest⟩ := of_readEntries_succ h
    obtain ⟨keyItem, hcountedKey, rfl, hdataKey⟩ := hitem _ _ _ hkey
    obtain ⟨valueItem, hcountedValue, rfl, hdataValue⟩ := hitem _ _ _ hvalue
    obtain ⟨entries, rfl, hcounteds, rfl, hdatas⟩ := ih hrest
    refine ⟨(keyItem, valueItem) :: entries, rfl, ⟨hcountedKey, hcountedValue, hcounteds⟩, rfl, ?_⟩
    rw [hdataKey, hdataValue, hdatas, entriesToBytes, List.append_assoc, List.append_assoc]

/-- What is read between two offsets, as a part of the data. -/
theorem subarray_of_readSlice {kind : String} {content : Bytes}
    (h : readSlice data kind offset length = .ok (content, next)) :
    content.length = length ∧ data.drop offset = content ++ data.drop next := by
  have hbound := (readSlice_bounds h).2
  rw [readSlice] at h
  split at h
  · cases h
  · cases h
    refine ⟨?_, drop_eq_subarray (Nat.le_add_right _ _)⟩
    rw [length_subarray]
    omega

/-- A number that was taken for a count was not rounded. -/
theorem toNumber_of_count {n : ℕ} {part : Bytes} (hdata : data.length < 2 ^ 53)
    (h : data.drop offset = part ++ rest) (hn : toNumber n ≤ part.length) : toNumber n = n := by
  have hlength := congrArg List.length h
  rw [List.length_drop, List.length_append] at hlength
  exact toNumber_eq_of_lt (by omega)

/-- What is read is what the reader makes of an item whose counts are right, and the bytes consumed
are those of the item. -/
theorem item_of_read (data : Bytes) (decodeText : Bytes → String) (hdata : data.length < 2 ^ 53)
    (stack : ℕ) : ReadsItems data decodeText (read data decodeText stack) := by
  induction stack with
  | zero => rintro _ _ _ ⟨⟩
  | succ stack ih =>
    intro offset value next h
    obtain ⟨majorType, info, number, between, hheader, hbody⟩ := read_eq_ok_iff.mp h
    obtain ⟨argument, hmajor, rfl, rfl, hhead⟩ := head_of_header hheader
    cases hbody with
    | unsigned => exact ⟨.unsigned argument, trivial, rfl, hhead⟩
    | negative => exact ⟨.negative argument, trivial, rfl, hhead⟩
    | special => exact ⟨.special argument, trivial, rfl, hhead⟩
    | bytes hslice =>
      obtain ⟨hlength, hcontent⟩ := subarray_of_readSlice hslice
      refine ⟨.bytes argument _, ?_, rfl, ?_⟩
      · exact (toNumber_of_count hdata hcontent hlength.ge).symm.trans hlength.symm
      · rw [hhead, hcontent, toBytes, List.append_assoc]
    | text hslice =>
      obtain ⟨hlength, hcontent⟩ := subarray_of_readSlice hslice
      refine ⟨.text argument _, ?_, rfl, ?_⟩
      · exact (toNumber_of_count hdata hcontent hlength.ge).symm.trans hlength.symm
      · rw [hhead, hcontent, toBytes, List.append_assoc]
    | array hitems =>
      obtain ⟨items, hlength, hcounted, rfl, hrest⟩ := ih.readItems hitems
      have hcount := toNumber_of_count hdata hrest
        (hlength.ge.trans (length_le_itemsToBytes items))
      refine ⟨.array argument items, ⟨hcount.symm.trans hlength.symm, hcounted⟩, rfl, ?_⟩
      rw [hhead, hrest, toBytes, List.append_assoc]
    | map hentries =>
      obtain ⟨entries, hlength, hcounted, rfl, hrest⟩ := ih.readEntries hentries
      have hcount := toNumber_of_count hdata hrest
        (hlength.ge.trans (length_le_entriesToBytes entries))
      refine ⟨.map argument entries, ⟨hcount.symm.trans hlength.symm, hcounted⟩, rfl, ?_⟩
      rw [hhead, hrest, toBytes, List.append_assoc]
    | tag hitem =>
      obtain ⟨item, hcounted, rfl, hrest⟩ := ih _ _ _ hitem
      refine ⟨.tag argument item, hcounted, rfl, ?_⟩
      rw [hhead, hrest, toBytes, List.append_assoc]

end

end Verixa.Mfa.Cbor
