import Verixa.Mfa.CborItemReading

/-!
# What the CBOR reader returns and what was written

An item denotes a value: integers, byte strings, texts, arrays, maps and the four simple values of
the language, with semantic tags dropped.  Floating-point numbers and other simple values denote
none.

The reader returns what is denoted for the items that are exact (`denotes_readerValue_iff`), and
for others it returns something all the same: the bits of a float, the number of a simple value, a
negative integer that was rounded, a text with replacement characters or without its mark, a map
that lost an entry.  So it never misreads just those data at whose beginning no other item stands
(`neverMisreads_iff`).
-/

namespace Verixa.Mfa.Cbor

open Encoding CborItem

mutual

/-- The item denotes exactly this value. -/
def Denotes : CborItem → CborValue → Prop
  | .unsigned argument, value => value = .number argument.value ∨ value = .bigint argument.value
  | .negative argument, value => value = .number (-1 - argument.value)
  | .bytes _ content, value => value = .bytes content
  | .text _ content, value => ∃ text, utf8 text = content ∧ value = .text text
  | .array _ items, value => ∃ values, value = .array values ∧ DenotesItems items values
  | .map _ entries, value => ∃ values, value = .map values ∧ DenotesEntries entries values
  | .tag _ item, value => Denotes item value
  | .special argument, value =>
    argument.info = 20 ∧ value = .boolean false ∨ argument.info = 21 ∧ value = .boolean true ∨
      argument.info = 22 ∧ value = .null ∨ argument.info = 23 ∧ value = .undefined

/-- Items. -/
def DenotesItems : List CborItem → List CborValue → Prop
  | [], values => values = []
  | item :: items, values =>
    ∃ value rest, values = value :: rest ∧ Denotes item value ∧ DenotesItems items rest

/-- Entries. -/
def DenotesEntries : List (CborItem × CborItem) → List (CborValue × CborValue) → Prop
  | [], values => values = []
  | (key, item) :: entries, values =>
    ∃ key' value rest, values = (key', value) :: rest ∧ Denotes key key' ∧ Denotes item value ∧
      DenotesEntries entries rest

end

/-- What makes an item the same key of a map as another. -/
inductive Key where
  | integer (value : ℤ)
  | text (content : Bytes)
  | simple (value : ℕ)
  deriving DecidableEq

/-- The key that an item is; strings of bytes, arrays and maps are no keys but themselves. -/
def key? : CborItem → Option Key
  | .unsigned argument => some (.integer argument.value)
  | .negative argument => some (.integer (-1 - argument.value))
  | .text _ content => some (.text content)
  | .tag _ item => key? item
  | .special argument => some (.simple argument.info)
  | .bytes _ _ | .array _ _ | .map _ _ => none

/-- No two keys are the same integer, text or simple value. -/
def DistinctItemKeys (entries : List (CborItem × CborItem)) : Prop :=
  entries.Pairwise fun earlier later => key? earlier.1 = none ∨ key? earlier.1 ≠ key? later.1

mutual

/-- The parts of an item are ones that the reader represents exactly: negative integers that two
roundings do not change, texts in UTF-8 without a mark at the beginning, the simple values from 20
to 23, and maps with distinct keys. -/
def Exact : CborItem → Prop
  | .negative argument => toNumber (toNumber argument.value + 1) = argument.value + 1
  | .text _ content =>
    ∃ text : String, utf8 text = content ∧ text.toList.head? ≠ some byteOrderMark
  | .array _ items => ExactItems items
  | .map _ entries => ExactEntries entries ∧ DistinctItemKeys entries
  | .tag _ item => Exact item
  | .special argument => 20 ≤ argument.info ∧ argument.info ≤ 23
  | .unsigned _ | .bytes _ _ => True

/-- Items. -/
def ExactItems : List CborItem → Prop
  | [] => True
  | item :: items => Exact item ∧ ExactItems items

/-- Entries. -/
def ExactEntries : List (CborItem × CborItem) → Prop
  | [] => True
  | (key, value) :: entries => Exact key ∧ Exact value ∧ ExactEntries entries

end

/-- The reader, at the beginning of the data, returns a value only for a well-formed item that
denotes it and whose bytes are the ones consumed; and where an item stands that denotes no value, it
throws. -/
def NeverMisreads (data : Bytes) : Prop :=
  (∀ stack value next, read data decodeText stack 0 = .ok (value, next) →
    ∃ item : CborItem, WellFormed item ∧ data.take next = toBytes item ∧ Denotes item value) ∧
  ∀ (item : CborItem) (rest : Bytes), WellFormed item → data = toBytes item ++ rest →
    (¬∃ value, Denotes item value) →
      ∀ stack, ∃ error, read data decodeText stack 0 = .error error

/-! ## Keys -/

/-- The key that a value is. -/
def keyOf : CborValue → Option Key
  | .number value => some (.integer value)
  | .bigint value => some (.integer value)
  | .text value => some (.text (utf8 value))
  | .boolean false => some (.simple 20)
  | .boolean true => some (.simple 21)
  | .null => some (.simple 22)
  | .undefined => some (.simple 23)
  | .bytes _ | .array _ | .map _ => none

/-- A bigint only where a number would not be exact. -/
def InRange : CborValue → Prop
  | .number value => value ≤ MAX_SAFE_INTEGER
  | .bigint value => MAX_SAFE_INTEGER < value
  | _ => True

theorem utf8_injective {a b : String} (h : utf8 a = utf8 b) : a = b := by
  have hdecoded : Utf8.decode (utf8 a) = Utf8.decode (utf8 b) := by rw [h]
  rw [decode_utf8, decode_utf8] at hdecoded
  exact String.toList_injective hdecoded

/-- Values with the same key are the same to a `Map`. -/
theorem sameKey_iff {a b : CborValue} (ha : InRange a) (hb : InRange b) :
    sameKey a b = true ↔ keyOf a = keyOf b ∧ keyOf a ≠ none := by
  have hrange : ∀ (value : ℤ) (large : ℕ), value ≤ MAX_SAFE_INTEGER → MAX_SAFE_INTEGER < large →
      value ≠ large := by
    intro value large hvalue hlarge hsame
    omega
  cases a with
  | number value =>
    cases b with
    | number other => simp [sameKey, keyOf]
    | bigint other => simp [sameKey, keyOf, hrange value other ha hb]
    | boolean other => cases other <;> simp [sameKey, keyOf]
    | _ => simp [sameKey, keyOf]
  | bigint value =>
    cases b with
    | number other => simp [sameKey, keyOf, (hrange other value hb ha).symm]
    | bigint other => simp [sameKey, keyOf]
    | boolean other => cases other <;> simp [sameKey, keyOf]
    | _ => simp [sameKey, keyOf]
  | text value =>
    cases b with
    | text other =>
      have hiff : utf8 value = utf8 other ↔ value = other := ⟨utf8_injective, congrArg utf8⟩
      simp [sameKey, keyOf, hiff]
    | boolean other => cases other <;> simp [sameKey, keyOf]
    | _ => simp [sameKey, keyOf]
  | boolean value =>
    cases b with
    | boolean other => cases value <;> cases other <;> simp [sameKey, keyOf]
    | _ => cases value <;> simp [sameKey, keyOf]
  | null =>
    cases b with
    | boolean other => cases other <;> simp [sameKey, keyOf]
    | _ => simp [sameKey, keyOf]
  | undefined =>
    cases b with
    | boolean other => cases other <;> simp [sameKey, keyOf]
    | _ => simp [sameKey, keyOf]
  | bytes value => simp [sameKey, keyOf]
  | array items => simp [sameKey, keyOf]
  | map entries => simp [sameKey, keyOf]

theorem inRange_ofUnsigned (value : ℕ) : InRange (ofUnsigned value) := by
  rw [ofUnsigned]
  split
  · rename_i hsafe
    exact Int.ofNat_le.mpr hsafe
  · rename_i hlarge
    exact Nat.lt_of_not_le hlarge

theorem inRange_simpleValue (info value : ℕ) : InRange (simpleValue info value) := by
  unfold simpleValue
  split
  · trivial
  · trivial
  · trivial
  · trivial
  · exact inRange_ofUnsigned value

/-- What the reader makes of items. -/
theorem inRange_readerValue : ∀ item : CborItem, InRange (readerValue decodeText item)
  | .unsigned argument => inRange_ofUnsigned argument.value
  | .negative argument => by
    rw [readerValue]
    change -((toNumber (toNumber argument.value + 1) : ℕ) : ℤ) ≤ MAX_SAFE_INTEGER
    omega
  | .special argument => inRange_simpleValue argument.info argument.value
  | .tag _ item => inRange_readerValue item
  | .bytes _ _ | .text _ _ | .array _ _ | .map _ _ => trivial

/-- A simple value of the language is read as what it is. -/
theorem simpleValue_exact {info : ℕ} (value : ℕ) (hlow : 20 ≤ info) (hhigh : info ≤ 23) :
    info = 20 ∧ simpleValue info value = .boolean false ∨
      info = 21 ∧ simpleValue info value = .boolean true ∨
        info = 22 ∧ simpleValue info value = .null ∨
          info = 23 ∧ simpleValue info value = .undefined := by
  have hcases : info = 20 ∨ info = 21 ∨ info = 22 ∨ info = 23 := by omega
  rcases hcases with rfl | rfl | rfl | rfl
  · exact .inl ⟨rfl, rfl⟩
  · exact .inr (.inl ⟨rfl, rfl⟩)
  · exact .inr (.inr (.inl ⟨rfl, rfl⟩))
  · exact .inr (.inr (.inr ⟨rfl, rfl⟩))

/-- The key of an exact item is the key of what is read. -/
theorem keyOf_readerValue : ∀ item : CborItem, Exact item →
    keyOf (readerValue decodeText item) = key? item
  | .unsigned argument, _ => by
    rw [readerValue, ofUnsigned]
    split <;> rfl
  | .negative argument, h => by
    have hvalue : toNumber (toNumber argument.value + 1) = argument.value + 1 := h
    rw [readerValue, hvalue, keyOf, key?]
    congr 2
    omega
  | .text _ content, ⟨decoded, hcontent, hmark⟩ => by
    subst hcontent
    rw [readerValue, (decodeText_utf8_iff decoded).mpr hmark]
    rfl
  | .special argument, h => by
    rw [readerValue]
    rcases simpleValue_exact argument.value h.1 h.2 with ⟨hinfo, hread⟩ | ⟨hinfo, hread⟩ |
      ⟨hinfo, hread⟩ | ⟨hinfo, hread⟩
    all_goals rw [hread, key?, hinfo]; rfl
  | .tag _ item, h => keyOf_readerValue item h
  | .bytes _ _, _ => rfl
  | .array _ _, _ => rfl
  | .map _ _, _ => rfl

/-- The keys of exact items are the same to a `Map` if they are the same integer, text or simple
value. -/
theorem sameKey_readerValue {a b : CborItem} (ha : Exact a) (hb : Exact b) :
    sameKey (readerValue decodeText a) (readerValue decodeText b) = false ↔
      key? a = none ∨ key? a ≠ key? b := by
  have hiff := sameKey_iff (inRange_readerValue a) (inRange_readerValue b)
  rw [keyOf_readerValue a ha, keyOf_readerValue b hb] at hiff
  rw [← Bool.not_eq_true, hiff]
  tauto

/-! ## Maps -/

/-- What the entries of a map are read as, with any decoder of texts. -/
def readerPairs (decode : Bytes → String) (entries : List (CborItem × CborItem)) :
    List (CborValue × CborValue) :=
  entries.map fun entry => (readerValue decode entry.1, readerValue decode entry.2)

theorem readerEntries_eq (decode : Bytes → String) (entries : List (CborItem × CborItem))
    (earlier : List (CborValue × CborValue)) :
    readerEntries decode entries earlier =
      (readerPairs decode entries).foldl (fun found pair => setEntry found pair.1 pair.2)
        earlier := by
  induction entries generalizing earlier with
  | nil => rfl
  | cons entry entries ih => rw [readerEntries, ih]; rfl

theorem length_setEntries_le (pairs earlier : List (CborValue × CborValue)) :
    (pairs.foldl (fun found pair => setEntry found pair.1 pair.2) earlier).length ≤
      earlier.length + pairs.length := by
  induction pairs generalizing earlier with
  | nil => exact le_rfl
  | cons pair pairs ih =>
    have hrest := ih (setEntry earlier pair.1 pair.2)
    have hset := length_setEntry_le earlier pair.1 pair.2
    rw [List.foldl_cons, List.length_cons]
    omega

/-- Entries with distinct keys are all kept, in order. -/
theorem setEntries_of_distinct {pairs earlier : List (CborValue × CborValue)}
    (h : DistinctKeys (earlier ++ pairs)) :
    pairs.foldl (fun found pair => setEntry found pair.1 pair.2) earlier = earlier ++ pairs := by
  induction pairs generalizing earlier with
  | nil => exact (List.append_nil _).symm
  | cons pair pairs ih =>
    have hnew : setEntry earlier pair.1 pair.2 = earlier ++ [pair] := by
      refine if_neg fun hknown => ?_
      obtain ⟨entry, hmem, hsame⟩ := List.any_eq_true.mp hknown
      have hother := (List.pairwise_append.mp h).2.2 entry hmem pair List.mem_cons_self
      rw [hother] at hsame
      exact nomatch hsame
    rw [List.foldl_cons, hnew, ih (by rwa [List.append_assoc]), List.append_assoc]
    rfl

/-- Entries that are all kept have distinct keys. -/
theorem distinct_of_length {pairs earlier : List (CborValue × CborValue)}
    (hearlier : DistinctKeys earlier)
    (h : (pairs.foldl (fun found pair => setEntry found pair.1 pair.2) earlier).length =
      earlier.length + pairs.length) : DistinctKeys (earlier ++ pairs) := by
  induction pairs generalizing earlier with
  | nil => rwa [List.append_nil]
  | cons pair pairs ih =>
    rw [List.foldl_cons, List.length_cons] at h
    have hrest := length_setEntries_le pairs (setEntry earlier pair.1 pair.2)
    -- the entry did not replace an earlier one, as then one would be missing
    have hunknown : ¬(earlier.any fun entry => sameKey entry.1 pair.1) = true := by
      intro hknown
      have hlength : (setEntry earlier pair.1 pair.2).length = earlier.length := by
        rw [setEntry, if_pos hknown, List.length_map]
      omega
    have hnew : setEntry earlier pair.1 pair.2 = earlier ++ [pair] := if_neg hunknown
    have hdistinct : DistinctKeys (earlier ++ [pair]) := by
      refine List.pairwise_append.mpr ⟨hearlier, List.pairwise_singleton _ _, ?_⟩
      intro entry hentry other hother
      rw [List.mem_singleton.mp hother]
      by_contra hsame
      exact hunknown (List.any_eq_true.mpr ⟨entry, hentry, Bool.eq_true_of_not_eq_false hsame⟩)
    rw [hnew] at h
    have hall := ih hdistinct (by rw [h, List.length_append, List.length_singleton]; omega)
    rwa [List.append_assoc] at hall

theorem length_of_denotesEntries {entries : List (CborItem × CborItem)}
    {values : List (CborValue × CborValue)} (h : DenotesEntries entries values) :
    values.length = entries.length := by
  induction entries generalizing values with
  | nil =>
    rw [DenotesEntries] at h
    rw [h]
    rfl
  | cons entry entries ih =>
    obtain ⟨key, value, rest, rfl, -, -, hrest⟩ := h
    rw [List.length_cons, List.length_cons, ih hrest]

theorem exact_of_mem {entries : List (CborItem × CborItem)} (h : ExactEntries entries)
    {entry : CborItem × CborItem} (hmem : entry ∈ entries) : Exact entry.1 := by
  induction entries with
  | nil => exact absurd hmem List.not_mem_nil
  | cons first entries ih =>
    rcases List.mem_cons.mp hmem with rfl | htail
    · exact h.1
    · exact ih h.2.2 htail

/-- Exact keys are distinct where what is read of them is. -/
theorem distinctKeys_readerPairs {entries : List (CborItem × CborItem)}
    (h : ExactEntries entries) :
    DistinctKeys (readerPairs decodeText entries) ↔ DistinctItemKeys entries := by
  rw [DistinctKeys, readerPairs, List.pairwise_map]
  exact List.Pairwise.iff_of_mem fun ha hb =>
    sameKey_readerValue (exact_of_mem h ha) (exact_of_mem h hb)

/-- A map denotes what is read of it if its entries do and no key is there twice. -/
theorem denotesMap_iff {entries : List (CborItem × CborItem)}
    (h : DenotesEntries entries (readerPairs decodeText entries) ↔ ExactEntries entries) :
    DenotesEntries entries (readerEntries decodeText entries []) ↔
      ExactEntries entries ∧ DistinctItemKeys entries := by
  rw [readerEntries_eq]
  constructor
  · intro hdenotes
    have hlength := length_of_denotesEntries hdenotes
    have hpairs : (readerPairs decodeText entries).length = entries.length := List.length_map _
    have hdistinct := @distinct_of_length (readerPairs decodeText entries) [] List.Pairwise.nil (by
      rw [hlength, hpairs, List.length_nil, Nat.zero_add])
    rw [setEntries_of_distinct hdistinct] at hdenotes
    have hexact := h.mp hdenotes
    exact ⟨hexact, (distinctKeys_readerPairs hexact).mp hdistinct⟩
  · rintro ⟨hexact, hdistinct⟩
    have hkept := @setEntries_of_distinct (readerPairs decodeText entries) []
      ((distinctKeys_readerPairs hexact).mpr hdistinct)
    rw [hkept]
    exact h.mpr hexact

/-! ## Exact items -/

theorem denotes_unsigned (argument : Argument) :
    Denotes (.unsigned argument) (ofUnsigned argument.value) := by
  rw [ofUnsigned]
  split
  · exact .inl rfl
  · exact .inr rfl

theorem denotes_special_iff (argument : Argument) :
    Denotes (.special argument) (simpleValue argument.info argument.value) ↔
      20 ≤ argument.info ∧ argument.info ≤ 23 := by
  constructor
  · rintro (⟨hinfo, -⟩ | ⟨hinfo, -⟩ | ⟨hinfo, -⟩ | ⟨hinfo, -⟩)
    all_goals omega
  · exact fun h => simpleValue_exact argument.value h.1 h.2

mutual

/-- An item denotes what the reader makes of it exactly if its parts are ones that the reader
represents. -/
theorem denotes_readerValue_iff : ∀ item : CborItem,
    Denotes item (readerValue decodeText item) ↔ Exact item
  | .unsigned argument => iff_of_true (denotes_unsigned argument) trivial
  | .negative argument => by
    rw [readerValue]
    constructor
    · intro h
      have hvalue : -((toNumber (toNumber argument.value + 1) : ℕ) : ℤ) = -1 - argument.value :=
        CborValue.number.inj h
      change toNumber (toNumber argument.value + 1) = argument.value + 1
      omega
    · intro h
      have hvalue : toNumber (toNumber argument.value + 1) = argument.value + 1 := h
      rw [hvalue, Denotes]
      congr 1
      omega
  | .bytes argument content => iff_of_true rfl trivial
  | .text argument content => by
    constructor
    · rintro ⟨decoded, rfl, hread⟩
      exact ⟨decoded, rfl, (decodeText_utf8_iff decoded).mp (CborValue.text.inj hread)⟩
    · rintro ⟨decoded, rfl, hmark⟩
      refine ⟨decoded, rfl, ?_⟩
      rw [readerValue, (decodeText_utf8_iff decoded).mpr hmark]
  | .array argument items => by
    constructor
    · rintro ⟨values, hread, hdenotes⟩
      rw [← CborValue.array.inj hread] at hdenotes
      exact (denotes_readerValues_iff items).mp hdenotes
    · exact fun h => ⟨_, rfl, (denotes_readerValues_iff items).mpr h⟩
  | .map argument entries => by
    constructor
    · rintro ⟨values, hread, hdenotes⟩
      rw [← CborValue.map.inj hread] at hdenotes
      exact (denotesMap_iff (denotes_readerPairs_iff entries)).mp hdenotes
    · exact fun h => ⟨_, rfl, (denotesMap_iff (denotes_readerPairs_iff entries)).mpr h⟩
  | .tag argument item => denotes_readerValue_iff item
  | .special argument => denotes_special_iff argument

theorem denotes_readerValues_iff : ∀ items : List CborItem,
    DenotesItems items (readerValues decodeText items) ↔ ExactItems items
  | [] => iff_of_true rfl trivial
  | item :: items => by
    constructor
    · rintro ⟨value, rest, hread, hitem, hitems⟩
      obtain ⟨rfl, rfl⟩ := List.cons.inj hread
      exact ⟨(denotes_readerValue_iff item).mp hitem, (denotes_readerValues_iff items).mp hitems⟩
    · rintro ⟨hitem, hitems⟩
      exact ⟨_, _, rfl, (denotes_readerValue_iff item).mpr hitem,
        (denotes_readerValues_iff items).mpr hitems⟩

theorem denotes_readerPairs_iff : ∀ entries : List (CborItem × CborItem),
    DenotesEntries entries (readerPairs decodeText entries) ↔ ExactEntries entries
  | [] => iff_of_true rfl trivial
  | (key, value) :: entries => by
    constructor
    · rintro ⟨key', value', rest, hread, hkey, hvalue, hentries⟩
      obtain ⟨hpair, rfl⟩ := List.cons.inj hread
      cases hpair
      exact ⟨(denotes_readerValue_iff key).mp hkey, (denotes_readerValue_iff value).mp hvalue,
        (denotes_readerPairs_iff entries).mp hentries⟩
    · rintro ⟨hkey, hvalue, hentries⟩
      exact ⟨_, _, _, rfl, (denotes_readerValue_iff key).mpr hkey,
        (denotes_readerValue_iff value).mpr hvalue, (denotes_readerPairs_iff entries).mpr hentries⟩

end

mutual

/-- The simple values of an exact item stand in their initial bytes. -/
theorem simpleInPlace_of_exact : ∀ item : CborItem, Exact item → SimpleInPlace item
  | .special argument, h => fun hinfo => by
    have hlast := h.2
    omega
  | .array _ items, h => simpleInPlaceItems_of_exact items h
  | .map _ entries, h => simpleInPlaceEntries_of_exact entries h.1
  | .tag _ item, h => simpleInPlace_of_exact item h
  | .unsigned _, _ | .negative _, _ | .bytes _ _, _ | .text _ _, _ => trivial

theorem simpleInPlaceItems_of_exact :
    ∀ items : List CborItem, ExactItems items → SimpleInPlaceItems items
  | [], _ => trivial
  | item :: items, h => ⟨simpleInPlace_of_exact item h.1, simpleInPlaceItems_of_exact items h.2⟩

theorem simpleInPlaceEntries_of_exact :
    ∀ entries : List (CborItem × CborItem), ExactEntries entries → SimpleInPlaceEntries entries
  | [], _ => trivial
  | (key, value) :: entries, h =>
    ⟨simpleInPlace_of_exact key h.1, simpleInPlace_of_exact value h.2.1,
      simpleInPlaceEntries_of_exact entries h.2.2⟩

end

/-! ## Data that are never misread -/

/-- What is read at the beginning of data that begin with an item is what the reader makes of it. -/
theorem read_beginning {data rest : Bytes} {item : CborItem} (hlength : data.length < 2 ^ 53)
    (hcounted : Counted item) (hdata : data = toBytes item ++ rest) :
    read data decodeText (item.depth + 1) 0 =
      .ok (readerValue decodeText item, (toBytes item).length) := by
  have hread := @read_item decodeText item hcounted data rest 0 (item.depth + 1) hlength hdata
    (Nat.lt_succ_self _)
  rwa [Nat.zero_add] at hread

/-- What is read at the beginning of data is what the reader makes of an item there. -/
theorem item_at_beginning {data : Bytes} {stack next : ℕ} {value : CborValue}
    (hlength : data.length < 2 ^ 53) (h : read data decodeText stack 0 = .ok (value, next)) :
    ∃ item : CborItem, Counted item ∧ readerValue decodeText item = value ∧
      data = toBytes item ++ data.drop next ∧ data.take next = toBytes item := by
  obtain ⟨item, hcounted, hvalue, hdata⟩ :=
    item_of_read data decodeText hlength stack 0 value next h
  rw [List.drop_zero] at hdata
  have htake : data.take next ++ data.drop next = toBytes item ++ data.drop next := by
    rw [List.take_append_drop, ← hdata]
  exact ⟨item, hcounted, hvalue, hdata, List.append_cancel_right htake⟩

/-- Two items with the same bytes are the same. -/
theorem item_eq_of_bytes_eq {a b : CborItem} (ha : Counted a) (hb : Counted b)
    (h : toBytes a = toBytes b) : a = b :=
  (toBytes_append_inj a b ha hb (congrArg (· ++ []) h)).1

/-- Data are never misread exactly if an item that stands at their beginning is exact. -/
theorem neverMisreads_iff (data : Bytes) (hlength : data.length < 2 ^ 53) :
    NeverMisreads data ↔
      ∀ (item : CborItem) (rest : Bytes), Counted item → data = toBytes item ++ rest →
        Exact item := by
  constructor
  · rintro ⟨hreads, -⟩ item rest hcounted hdata
    have hread := read_beginning hlength hcounted hdata
    obtain ⟨other, hother, htake, hdenotes⟩ := hreads _ _ _ hread
    rw [hdata, List.take_left] at htake
    obtain rfl := item_eq_of_bytes_eq hcounted hother.1 htake
    exact (denotes_readerValue_iff item).mp hdenotes
  · intro hexact
    have hreads : ∀ stack value next, read data decodeText stack 0 = .ok (value, next) →
        ∃ item : CborItem, WellFormed item ∧ data.take next = toBytes item ∧
          Denotes item value := by
      intro stack value next h
      obtain ⟨item, hcounted, rfl, hdata, htake⟩ := item_at_beginning hlength h
      have hitem := hexact item _ hcounted hdata
      exact ⟨item, ⟨hcounted, simpleInPlace_of_exact item hitem⟩, htake,
        (denotes_readerValue_iff item).mpr hitem⟩
    refine ⟨hreads, fun item rest hformed hdata hnone stack => ?_⟩
    cases h : read data decodeText stack 0 with
    | error error => exact ⟨error, rfl⟩
    | ok result =>
      obtain ⟨other, hother, htake, hdenotes⟩ := hreads stack result.1 result.2 h
      have hboth : toBytes other ++ data.drop result.2 = toBytes item ++ rest := by
        rw [← htake, List.take_append_drop, hdata]
      have hsame := (toBytes_append_inj other item hother.1 hformed.1 hboth).1
      exact absurd ⟨result.1, hsame ▸ hdenotes⟩ hnone

/-- The data that a text is written as. -/
theorem neverMisreads_iff_sample :
    NeverMisreads [0x61, 0x61] ↔
      ∀ (item : CborItem) (rest : Bytes), Counted item → [0x61, 0x61] = toBytes item ++ rest →
        Exact item :=
  neverMisreads_iff [0x61, 0x61] (by decide)

theorem floatOne_info : 25 < 28 := by decide

/-- The half-precision number 1. -/
def floatOne : CborItem := .special ⟨25, [0x3c, 0x00], floatOne_info, rfl⟩

/-- It is read as the integer 15360. -/
theorem float_misread : ¬∀ data : Bytes, data.length < 2 ^ 53 → NeverMisreads data := by
  intro h
  obtain ⟨hreads, -⟩ := h (toBytes floatOne) (by decide)
  have hread := @read_beginning (toBytes floatOne) [] floatOne (by decide) trivial
    (List.append_nil _).symm
  have hvalue : readerValue decodeText floatOne = .number 15360 := by
    change ofUnsigned 15360 = _
    exact if_pos (by decide)
  rw [hvalue] at hread
  obtain ⟨item, hformed, htake, hdenotes⟩ := hreads _ _ _ hread
  have hsame : item = floatOne := item_eq_of_bytes_eq hformed.1 trivial htake.symm
  rw [hsame] at hdenotes
  rcases hdenotes with ⟨hinfo, -⟩ | ⟨hinfo, -⟩ | ⟨hinfo, -⟩ | ⟨hinfo, -⟩
  all_goals exact absurd hinfo (by decide)

end Verixa.Mfa.Cbor
