import Verixa.Mfa.CborRoundTrip

/-!
# The CBOR reader stays inside its data

One call of `read` reads a header and then what the header announces, for arrays, maps and tags by
further calls (`read_succ`).  Each call that succeeds consumes a byte at least, so the calls made
for an item stand at ever higher offsets, none beyond the end (`visited_climbs`); their number is
bounded by the bytes that remain, however large the announced lengths are.  A stack of one call for
each of these bytes is never exceeded, and a larger one changes nothing (`read_bounded`).
-/

namespace Verixa.Mfa.Cbor

open Encoding

/-! ## One call -/

section Call

variable (data : Bytes) (decodeText : Bytes → String)

/-- The major type and the low bits of the initial byte, the value that these hold or announce, and
the offset after it. -/
def header (offset : ℕ) : Except ThrownError (ℕ × ℕ × ℕ × ℕ) :=
  match data[offset]? with
  | none => .error (thrown "Unexpected end of CBOR input")
  | some initialByte => do
    let (value, next) ← readLengthOrValue data (offset + 1) (initialByte.toNat % 32)
    return (initialByte.toNat / 32, initialByte.toNat % 32, value, next)

/-- What follows a header. -/
def readBody (readItem : ℕ → Except ThrownError (CborValue × ℕ))
    (majorType additionalInfo value offset : ℕ) : Except ThrownError (CborValue × ℕ) :=
  match majorType with
  | 0 => return (ofUnsigned value, offset)
  | 1 => return (.number (-(toNumber (toNumber value + 1))), offset)
  | 2 => do
    let (slice, offset) ← readSlice data "byte" offset (toNumber value)
    return (.bytes slice, offset)
  | 3 => do
    let (slice, offset) ← readSlice data "text" offset (toNumber value)
    return (.text (decodeText slice), offset)
  | 4 => do
    let (items, offset) ← readItems readItem (toNumber value) offset
    return (.array items, offset)
  | 5 => do
    let (entries, offset) ← readEntries readItem (toNumber value) [] offset
    return (.map entries, offset)
  | 6 => readItem offset
  | 7 => return (simpleValue additionalInfo value, offset)
  | _ => .error (thrown s!"Unsupported CBOR major type: {majorType}")

/-- A call reads a header and then what follows it. -/
theorem read_succ (stack offset : ℕ) :
    read data decodeText (stack + 1) offset = header data offset >>= fun h =>
      readBody data decodeText (read data decodeText stack) h.1 h.2.1 h.2.2.1 h.2.2.2 := by
  rw [read, header]
  cases data[offset]? with
  | none => rfl
  | some initialByte =>
    dsimp only
    cases readLengthOrValue data (offset + 1) (initialByte.toNat % 32) <;> rfl

/-- What a body can be read as. -/
inductive BodyRead (readItem : ℕ → Except ThrownError (CborValue × ℕ)) :
    (majorType additionalInfo value offset : ℕ) → CborValue → ℕ → Prop
  | unsigned {info value offset : ℕ} :
    BodyRead readItem 0 info value offset (ofUnsigned value) offset
  | negative {info value offset : ℕ} :
    BodyRead readItem 1 info value offset (.number (-(toNumber (toNumber value + 1)))) offset
  | bytes {info value offset next : ℕ} {slice : Bytes}
    (h : readSlice data "byte" offset (toNumber value) = .ok (slice, next)) :
    BodyRead readItem 2 info value offset (.bytes slice) next
  | text {info value offset next : ℕ} {slice : Bytes}
    (h : readSlice data "text" offset (toNumber value) = .ok (slice, next)) :
    BodyRead readItem 3 info value offset (.text (decodeText slice)) next
  | array {info value offset next : ℕ} {items : List CborValue}
    (h : readItems readItem (toNumber value) offset = .ok (items, next)) :
    BodyRead readItem 4 info value offset (.array items) next
  | map {info value offset next : ℕ} {entries : List (CborValue × CborValue)}
    (h : readEntries readItem (toNumber value) [] offset = .ok (entries, next)) :
    BodyRead readItem 5 info value offset (.map entries) next
  | tag {info value offset next : ℕ} {item : CborValue} (h : readItem offset = .ok (item, next)) :
    BodyRead readItem 6 info value offset item next
  | special {info value offset : ℕ} :
    BodyRead readItem 7 info value offset (simpleValue info value) offset

end Call

section

variable {data : Bytes} {decodeText : Bytes → String}
  {readItem : ℕ → Except ThrownError (CborValue × ℕ)} {majorType info value offset next : ℕ}
  {item : CborValue}

/-- What was read went through one of the cases. -/
theorem readBody_eq_ok_iff :
    readBody data decodeText readItem majorType info value offset = .ok (item, next) ↔
      BodyRead data decodeText readItem majorType info value offset item next := by
  constructor
  · intro h
    unfold readBody at h
    split at h
    · cases h
      exact .unsigned
    · cases h
      exact .negative
    · obtain ⟨⟨slice, after⟩, hslice, hreturn⟩ := bind_eq_ok h
      cases hreturn
      exact .bytes hslice
    · obtain ⟨⟨slice, after⟩, hslice, hreturn⟩ := bind_eq_ok h
      cases hreturn
      exact .text hslice
    · obtain ⟨⟨items, after⟩, hitems, hreturn⟩ := bind_eq_ok h
      cases hreturn
      exact .array hitems
    · obtain ⟨⟨entries, after⟩, hentries, hreturn⟩ := bind_eq_ok h
      cases hreturn
      exact .map hentries
    · exact .tag h
    · cases h
      exact .special
    · cases h
  · intro h
    cases h with
    | unsigned => rfl
    | negative => rfl
    | bytes h => rw [readBody, h]; rfl
    | text h => rw [readBody, h]; rfl
    | array h => rw [readBody, h]; rfl
    | map h => rw [readBody, h]; rfl
    | tag h => exact h
    | special => rfl

/-- A call that returns has read a header and a body. -/
theorem read_eq_ok_iff {stack : ℕ} :
    read data decodeText (stack + 1) offset = .ok (item, next) ↔
      ∃ majorType info value between, header data offset = .ok (majorType, info, value, between) ∧
        BodyRead data decodeText (read data decodeText stack) majorType info value between item
          next := by
  rw [read_succ]
  cases header data offset with
  | error error =>
    constructor
    · rintro ⟨⟩
    · rintro ⟨majorType, info, value, between, h, _⟩
      cases h
  | ok h =>
    obtain ⟨majorType, info, value, between⟩ := h
    constructor
    · exact fun h => ⟨majorType, info, value, between, rfl, readBody_eq_ok_iff.mp h⟩
    · rintro ⟨majorType', info', value', between', h, hbody⟩
      cases h
      exact readBody_eq_ok_iff.mpr hbody

/-! ## Offsets -/

/-- A number of bytes lies within the data. -/
theorem readNumber_bounds {width number : ℕ}
    (h : readNumber data offset width = .ok (number, next)) :
    next = offset + width ∧ next ≤ data.length := by
  rw [readNumber] at h
  split at h
  · cases h
  · cases h
    exact ⟨rfl, by omega⟩

/-- A value stands in the initial byte or in one, two, four or eight bytes after it. -/
theorem readLengthOrValue_eq (data : Bytes) (offset info : ℕ) :
    readLengthOrValue data offset info =
      if info < 24 then .ok (info, offset)
      else if info < 28 then readNumber data offset (2 ^ (info - 24))
      else .error (thrown s!"Unsupported CBOR additional info: {info}") := by
  rw [readLengthOrValue]
  by_cases hsmall : info < 24
  · rw [if_pos hsmall, if_pos hsmall]
  · rw [if_neg hsmall, if_neg hsmall]
    by_cases hlarge : info < 28
    · rw [if_pos hlarge]
      have hcases : info = 24 ∨ info = 25 ∨ info = 26 ∨ info = 27 := by omega
      rcases hcases with rfl | rfl | rfl | rfl <;> rfl
    · rw [if_neg hlarge, if_neg (by omega), if_neg (by omega), if_neg (by omega),
        if_neg (by omega)]

theorem readLengthOrValue_cases (h : readLengthOrValue data offset info = .ok (value, next)) :
    info < 24 ∧ value = info ∧ next = offset ∨
      24 ≤ info ∧ info < 28 ∧ readNumber data offset (2 ^ (info - 24)) = .ok (value, next) := by
  rw [readLengthOrValue_eq] at h
  split at h
  · rename_i hinfo
    cases h
    exact .inl ⟨hinfo, rfl, rfl⟩
  · rename_i hsmall
    split at h
    · rename_i hlarge
      exact .inr ⟨by omega, hlarge, h⟩
    · cases h

theorem header_bounds (h : header data offset = .ok (majorType, info, value, next)) :
    offset < next ∧ next ≤ data.length := by
  rw [header] at h
  cases hbyte : data[offset]? with
  | none =>
    rw [hbyte] at h
    cases h
  | some initialByte =>
    rw [hbyte] at h
    obtain ⟨⟨number, after⟩, hvalue, hreturn⟩ := bind_eq_ok h
    cases hreturn
    have hoffset : offset < data.length := (List.getElem?_eq_some_iff.mp hbyte).1
    rcases readLengthOrValue_cases hvalue with ⟨_, _, rfl⟩ | ⟨_, _, hnumber⟩
    · exact ⟨Nat.lt_succ_self _, hoffset⟩
    · obtain ⟨hnext, hbound⟩ := readNumber_bounds hnumber
      have hsome : 0 < 2 ^ (initialByte.toNat % 32 - 24) := Nat.two_pow_pos _
      exact ⟨by omega, hbound⟩

theorem readSlice_bounds {kind : String} {length : ℕ} {slice : Bytes}
    (h : readSlice data kind offset length = .ok (slice, next)) :
    offset ≤ next ∧ next ≤ data.length := by
  rw [readSlice] at h
  split at h
  · cases h
  · cases h
    exact ⟨by omega, by omega⟩

/-- A reader of items that goes on, up to the end of the data at most. -/
def Advances (limit : ℕ) (readItem : ℕ → Except ThrownError (CborValue × ℕ)) : Prop :=
  ∀ offset item next, readItem offset = .ok (item, next) → offset < next ∧ next ≤ limit

theorem Advances.readItems {limit length : ℕ} {items : List CborValue}
    (hitem : Advances limit readItem) (hoffset : offset ≤ limit)
    (h : readItems readItem length offset = .ok (items, next)) :
    offset ≤ next ∧ next ≤ limit := by
  induction length generalizing offset items with
  | zero =>
    cases h
    exact ⟨le_rfl, hoffset⟩
  | succ length ih =>
    obtain ⟨item, between, rest, hfirst, hrest, rfl⟩ := of_readItems_succ h
    obtain ⟨hlt, hbetween⟩ := hitem _ _ _ hfirst
    obtain ⟨hle, hnext⟩ := ih hbetween hrest
    exact ⟨hlt.le.trans hle, hnext⟩

theorem Advances.readEntries {limit length : ℕ} {earlier final : List (CborValue × CborValue)}
    (hitem : Advances limit readItem) (hoffset : offset ≤ limit)
    (h : readEntries readItem length earlier offset = .ok (final, next)) :
    offset ≤ next ∧ next ≤ limit := by
  induction length generalizing offset earlier with
  | zero =>
    cases h
    exact ⟨le_rfl, hoffset⟩
  | succ length ih =>
    obtain ⟨key, between, value, behind, hkey, hvalue, hrest⟩ := of_readEntries_succ h
    obtain ⟨hlt, hbetween⟩ := hitem _ _ _ hkey
    obtain ⟨hlt', hbehind⟩ := hitem _ _ _ hvalue
    obtain ⟨hle, hnext⟩ := ih hbehind hrest
    exact ⟨hlt.le.trans (hlt'.le.trans hle), hnext⟩

/-- What follows a header ends behind it, within the data. -/
theorem Advances.body (hitem : Advances data.length readItem) (hoffset : offset ≤ data.length)
    (h : BodyRead data decodeText readItem majorType info value offset item next) :
    offset ≤ next ∧ next ≤ data.length := by
  cases h with
  | unsigned => exact ⟨le_rfl, hoffset⟩
  | negative => exact ⟨le_rfl, hoffset⟩
  | bytes h => exact readSlice_bounds h
  | text h => exact readSlice_bounds h
  | array h => exact hitem.readItems hoffset h
  | map h => exact hitem.readEntries hoffset h
  | tag h => exact ⟨(hitem _ _ _ h).1.le, (hitem _ _ _ h).2⟩
  | special => exact ⟨le_rfl, hoffset⟩

/-- Every call that returns has consumed a byte at least, and no byte beyond the end. -/
theorem advances_read (data : Bytes) (decodeText : Bytes → String) (stack : ℕ) :
    Advances data.length (read data decodeText stack) := by
  induction stack with
  | zero => rintro _ _ _ ⟨⟩
  | succ stack ih =>
    intro offset item next h
    obtain ⟨majorType, info, value, between, hheader, hbody⟩ := read_eq_ok_iff.mp h
    obtain ⟨hlt, hbetween⟩ := header_bounds hheader
    obtain ⟨hle, hnext⟩ := ih.body hbetween hbody
    exact ⟨hlt.trans_le hle, hnext⟩

/-! ## Bytes that are not consumed -/

/-- The two arrays begin with the same bytes. -/
def SamePrefix (data data' : Bytes) (length : ℕ) : Prop := data'.take length = data.take length

section

variable {data' : Bytes}

theorem SamePrefix.mono {length shorter : ℕ} (h : SamePrefix data data' length)
    (hshorter : shorter ≤ length) : SamePrefix data data' shorter := by
  have htake := congrArg (List.take shorter) h
  rwa [List.take_take, List.take_take, Nat.min_eq_left hshorter] at htake

theorem SamePrefix.getElem? {length index : ℕ} (h : SamePrefix data data' length)
    (hindex : index < length) : data'[index]? = data[index]? := by
  rw [← List.getElem?_take_of_lt hindex, h, List.getElem?_take_of_lt hindex]

theorem SamePrefix.subarray {length start stop : ℕ} (h : SamePrefix data data' length)
    (hstop : stop ≤ length) : subarray data' start stop = subarray data start stop := by
  rw [Encoding.subarray, Encoding.subarray, h.mono hstop]

/-- Where one array has the bytes, the other has them too. -/
theorem SamePrefix.length_le {length : ℕ} (h : SamePrefix data data' length)
    (hlength : length ≤ data.length) : length ≤ data'.length := by
  have hlengths := congrArg List.length h
  rw [List.length_take, List.length_take] at hlengths
  omega

theorem SamePrefix.readNumber {width number : ℕ} (hsame : SamePrefix data data' next)
    (h : readNumber data offset width = .ok (number, next)) :
    Cbor.readNumber data' offset width = .ok (number, next) := by
  obtain ⟨rfl, hbound⟩ := readNumber_bounds h
  have hbound' := hsame.length_le hbound
  rw [Cbor.readNumber, if_neg (by omega)] at h ⊢
  rw [hsame.subarray le_rfl, h]

theorem SamePrefix.readSlice {kind : String} {length : ℕ} {slice : Bytes}
    (hsame : SamePrefix data data' next)
    (h : readSlice data kind offset length = .ok (slice, next)) :
    Cbor.readSlice data' kind offset length = .ok (slice, next) := by
  have hbound := (readSlice_bounds h).2
  rw [Cbor.readSlice] at h ⊢
  split at h
  · cases h
  · cases h
    have hbound' := hsame.length_le hbound
    rw [if_neg (by omega), hsame.subarray le_rfl]

theorem SamePrefix.header (hsame : SamePrefix data data' next)
    (h : header data offset = .ok (majorType, info, value, next)) :
    Cbor.header data' offset = .ok (majorType, info, value, next) := by
  have hlt := (header_bounds h).1
  rw [Cbor.header] at h ⊢
  rw [hsame.getElem? hlt]
  cases hbyte : data[offset]? with
  | none =>
    rw [hbyte] at h
    cases h
  | some initialByte =>
    rw [hbyte] at h
    obtain ⟨⟨number, after⟩, hvalue, hreturn⟩ := bind_eq_ok h
    cases hreturn
    have hvalue' : readLengthOrValue data' (offset + 1) (initialByte.toNat % 32) =
        .ok (value, next) := by
      rw [readLengthOrValue_eq]
      rcases readLengthOrValue_cases hvalue with ⟨hinfo, hnumber, hnext⟩ | ⟨hsmall, hlarge, hread⟩
      · rw [if_pos hinfo, hnumber, hnext]
      · rw [if_neg (by omega), if_pos hlarge, hsame.readNumber hread]
    dsimp only
    rw [hvalue']
    rfl

/-- A reader of items that depends on no byte behind the item. -/
def Local (data data' : Bytes) (readItem readItem' : ℕ → Except ThrownError (CborValue × ℕ)) :
    Prop :=
  ∀ offset item next, SamePrefix data data' next → readItem offset = .ok (item, next) →
    readItem' offset = .ok (item, next)

variable {readItem' : ℕ → Except ThrownError (CborValue × ℕ)}

theorem Local.readItems {length : ℕ} {items : List CborValue}
    (hlocal : Local data data' readItem readItem') (hitem : Advances data.length readItem)
    (hsame : SamePrefix data data' next)
    (h : readItems readItem length offset = .ok (items, next)) :
    Cbor.readItems readItem' length offset = .ok (items, next) := by
  induction length generalizing offset items with
  | zero => exact h
  | succ length ih =>
    obtain ⟨item, between, rest, hfirst, hrest, rfl⟩ := of_readItems_succ h
    obtain ⟨_, hbetween⟩ := hitem _ _ _ hfirst
    have hle := (hitem.readItems hbetween hrest).1
    exact readItems_succ (hlocal _ _ _ (hsame.mono hle) hfirst) (ih hrest)

theorem Local.readEntries {length : ℕ} {earlier final : List (CborValue × CborValue)}
    (hlocal : Local data data' readItem readItem') (hitem : Advances data.length readItem)
    (hsame : SamePrefix data data' next)
    (h : readEntries readItem length earlier offset = .ok (final, next)) :
    Cbor.readEntries readItem' length earlier offset = .ok (final, next) := by
  induction length generalizing offset earlier with
  | zero => exact h
  | succ length ih =>
    obtain ⟨key, between, value, behind, hkey, hvalue, hrest⟩ := of_readEntries_succ h
    obtain ⟨_, hbetween⟩ := hitem _ _ _ hkey
    obtain ⟨hle, hbehind⟩ := hitem _ _ _ hvalue
    have hle' := (hitem.readEntries hbehind hrest).1
    exact readEntries_succ (hlocal _ _ _ (hsame.mono (hle.le.trans hle')) hkey)
      (hlocal _ _ _ (hsame.mono hle') hvalue) (ih hrest)

theorem Local.body (hlocal : Local data data' readItem readItem')
    (hitem : Advances data.length readItem) (hsame : SamePrefix data data' next)
    (h : BodyRead data decodeText readItem majorType info value offset item next) :
    BodyRead data' decodeText readItem' majorType info value offset item next := by
  cases h with
  | unsigned => exact .unsigned
  | negative => exact .negative
  | bytes h => exact .bytes (hsame.readSlice h)
  | text h => exact .text (hsame.readSlice h)
  | array h => exact .array (hlocal.readItems hitem hsame h)
  | map h => exact .map (hlocal.readEntries hitem hsame h)
  | tag h => exact .tag (hlocal _ _ _ hsame h)
  | special => exact .special

/-- What is read depends on no byte behind it. -/
theorem local_read (data data' : Bytes) (decodeText : Bytes → String) (stack : ℕ) :
    Local data data' (read data decodeText stack) (read data' decodeText stack) := by
  induction stack with
  | zero => rintro _ _ _ _ ⟨⟩
  | succ stack ih =>
    intro offset item next hsame h
    obtain ⟨majorType, info, value, between, hheader, hbody⟩ := read_eq_ok_iff.mp h
    have hbetween := (header_bounds hheader).2
    have hadvances := advances_read data decodeText stack
    have hle := (hadvances.body hbetween hbody).1
    exact read_eq_ok_iff.mpr ⟨majorType, info, value, between, (hsame.mono hle).header hheader,
      ih.body hadvances hsame hbody⟩

end

/-! ## The stack -/

/-- The loop over items asks for no item before its offset. -/
theorem readItems_congr {limit length : ℕ} {readItem' : ℕ → Except ThrownError (CborValue × ℕ)}
    (hitem : Advances limit readItem) (h : ∀ o, offset ≤ o → readItem o = readItem' o) :
    readItems readItem length offset = readItems readItem' length offset := by
  induction length generalizing offset with
  | zero => rfl
  | succ length ih =>
    rw [readItems, readItems, ← h offset le_rfl]
    cases hfirst : readItem offset with
    | error error => rfl
    | ok first =>
      have hlt := (hitem _ _ _ hfirst).1
      have hrest : readItems readItem length first.2 = readItems readItem' length first.2 :=
        ih fun o ho => h o (hlt.le.trans ho)
      change (readItems readItem length first.2 >>= _) = (readItems readItem' length first.2 >>= _)
      rw [hrest]

theorem readEntries_congr {limit length : ℕ}
    {readItem' : ℕ → Except ThrownError (CborValue × ℕ)} {earlier : List (CborValue × CborValue)}
    (hitem : Advances limit readItem) (h : ∀ o, offset ≤ o → readItem o = readItem' o) :
    readEntries readItem length earlier offset = readEntries readItem' length earlier offset := by
  induction length generalizing offset earlier with
  | zero => rfl
  | succ length ih =>
    rw [readEntries, readEntries, ← h offset le_rfl]
    cases hkey : readItem offset with
    | error error => rfl
    | ok key =>
      have hlt := (hitem _ _ _ hkey).1
      change (readItem key.2 >>= _) = (readItem' key.2 >>= _)
      rw [← h key.2 hlt.le]
      cases hvalue : readItem key.2 with
      | error error => rfl
      | ok value =>
        have hlt' := (hitem _ _ _ hvalue).1
        exact ih fun o ho => h o (hlt.le.trans (hlt'.le.trans ho))

/-- What follows a header asks for no item before it. -/
theorem readBody_congr {limit : ℕ} {readItem' : ℕ → Except ThrownError (CborValue × ℕ)}
    (hitem : Advances limit readItem) (h : ∀ o, offset ≤ o → readItem o = readItem' o) :
    readBody data decodeText readItem majorType info value offset =
      readBody data decodeText readItem' majorType info value offset := by
  unfold readBody
  split
  case h_5 => rw [readItems_congr hitem h]
  case h_6 => rw [readEntries_congr hitem h]
  case h_7 => exact h offset le_rfl
  all_goals rfl

/-- An error of the loop over items is an error of one of them. -/
theorem readItems_error {limit length : ℕ} {error : ThrownError} (hitem : Advances limit readItem)
    (h : readItems readItem length offset = .error error) :
    ∃ o, offset ≤ o ∧ readItem o = .error error := by
  induction length generalizing offset with
  | zero => cases h
  | succ length ih =>
    rw [readItems] at h
    rcases bind_eq_error h with hfirst | ⟨first, hfirst, hafter⟩
    · exact ⟨offset, le_rfl, hfirst⟩
    · have hlt := (hitem _ _ _ hfirst).1
      rcases bind_eq_error hafter with hrest | ⟨rest, _, hreturn⟩
      · obtain ⟨o, ho, herror⟩ := ih hrest
        exact ⟨o, hlt.le.trans ho, herror⟩
      · cases hreturn

theorem readEntries_error {limit length : ℕ} {error : ThrownError}
    {earlier : List (CborValue × CborValue)} (hitem : Advances limit readItem)
    (h : readEntries readItem length earlier offset = .error error) :
    ∃ o, offset ≤ o ∧ readItem o = .error error := by
  induction length generalizing offset earlier with
  | zero => cases h
  | succ length ih =>
    rw [readEntries] at h
    rcases bind_eq_error h with hkey | ⟨key, hkey, hafter⟩
    · exact ⟨offset, le_rfl, hkey⟩
    · have hlt := (hitem _ _ _ hkey).1
      rcases bind_eq_error hafter with hvalue | ⟨value, hvalue, hrest⟩
      · exact ⟨key.2, hlt.le, hvalue⟩
      · have hlt' := (hitem _ _ _ hvalue).1
        obtain ⟨o, ho, herror⟩ := ih hrest
        exact ⟨o, hlt.le.trans (hlt'.le.trans ho), herror⟩

theorem readSlice_error {kind : String} {length : ℕ} {error : ThrownError}
    (h : readSlice data kind offset length = .error error) : error.name = "Error" := by
  rw [readSlice] at h
  split at h
  · cases h
    rfl
  · cases h

theorem header_error {error : ThrownError} (h : header data offset = .error error) :
    error.name = "Error" := by
  rw [header] at h
  cases hbyte : data[offset]? with
  | none =>
    rw [hbyte] at h
    cases h
    rfl
  | some initialByte =>
    rw [hbyte] at h
    dsimp only at h
    rw [readLengthOrValue_eq, readNumber] at h
    split at h
    · cases h
    · split at h
      · split at h
        · cases h
          rfl
        · cases h
      · cases h
        rfl

/-- What follows a header fails with an error of its own or with one of a further call. -/
theorem readBody_error {limit : ℕ} {error : ThrownError} (hitem : Advances limit readItem)
    (h : readBody data decodeText readItem majorType info value offset = .error error) :
    error.name = "Error" ∨ ∃ o, offset ≤ o ∧ readItem o = .error error := by
  unfold readBody at h
  split at h
  · cases h
  · cases h
  · rcases bind_eq_error h with hslice | ⟨_, _, hreturn⟩
    · exact .inl (readSlice_error hslice)
    · cases hreturn
  · rcases bind_eq_error h with hslice | ⟨_, _, hreturn⟩
    · exact .inl (readSlice_error hslice)
    · cases hreturn
  · rcases bind_eq_error h with hitems | ⟨_, _, hreturn⟩
    · exact .inr (readItems_error hitem hitems)
    · cases hreturn
  · rcases bind_eq_error h with hentries | ⟨_, _, hreturn⟩
    · exact .inr (readEntries_error hitem hentries)
    · cases hreturn
  · exact .inr ⟨offset, le_rfl, h⟩
  · cases h
  · cases h
    exact .inl rfl

/-- A stack of as many calls as there are bytes left is not exceeded, and one call more changes
nothing. -/
theorem read_stack (data : Bytes) (decodeText : Bytes → String) {stack offset : ℕ}
    (h : data.length - offset < stack) :
    read data decodeText (stack + 1) offset = read data decodeText stack offset ∧
      read data decodeText stack offset ≠ .error stackExceeded := by
  induction stack generalizing offset with
  | zero => exact absurd h (Nat.not_lt_zero _)
  | succ stack ih =>
    have hadvances := advances_read data decodeText stack
    have hdeeper := advances_read data decodeText (stack + 1)
    rw [read_succ data decodeText (stack + 1), read_succ data decodeText stack]
    cases hheader : header data offset with
    | error error =>
      refine ⟨rfl, fun hstack => ?_⟩
      have hname := header_error hheader
      rw [Except.error.inj hstack] at hname
      exact absurd hname (by decide)
    | ok start =>
      obtain ⟨majorType, info, value, between⟩ := start
      obtain ⟨hlt, hbetween⟩ := header_bounds hheader
      -- the items behind the header have fewer bytes left, and the stack is enough for them
      have hroom : ∀ o, between ≤ o → data.length - o < stack := by
        intro o ho
        omega
      constructor
      · exact readBody_congr hdeeper fun o ho => (ih (hroom o ho)).1
      · intro hstack
        rcases readBody_error hadvances hstack with hname | ⟨o, ho, herror⟩
        · exact absurd hname (by decide)
        · exact (ih (hroom o ho)).2 herror

/-- Any stack that is deep enough gives the same. -/
theorem read_eq_of_lt (data : Bytes) (decodeText : Bytes → String) {stack offset : ℕ}
    (h : data.length - offset < stack) :
    read data decodeText stack offset =
      read data decodeText (data.length - offset + 1) offset := by
  obtain ⟨more, rfl⟩ := Nat.exists_eq_add_of_le (Nat.succ_le_of_lt h)
  induction more with
  | zero => rfl
  | succ more ih =>
    have hstep := (@read_stack data decodeText (data.length - offset + 1 + more) offset
      (by omega)).1
    exact hstep.trans (ih (by omega))

/-! ## The calls -/

section Calls

variable (data : Bytes) (decodeText : Bytes → String)

/-- The offsets of the calls that the loop over items makes. -/
def visitedItems (readItem : ℕ → Except ThrownError (CborValue × ℕ)) (visitItem : ℕ → List ℕ) :
    ℕ → ℕ → List ℕ
  | 0, _ => []
  | length + 1, offset =>
    visitItem offset ++
      match readItem offset with
      | .ok (_, offset) => visitedItems readItem visitItem length offset
      | .error _ => []

/-- The offsets of the calls that the loop over entries makes. -/
def visitedEntries (readItem : ℕ → Except ThrownError (CborValue × ℕ)) (visitItem : ℕ → List ℕ) :
    ℕ → ℕ → List ℕ
  | 0, _ => []
  | length + 1, offset =>
    visitItem offset ++
      match readItem offset with
      | .ok (_, offset) =>
        visitItem offset ++
          match readItem offset with
          | .ok (_, offset) => visitedEntries readItem visitItem length offset
          | .error _ => []
      | .error _ => []

/-- The offsets of the calls for what follows a header. -/
def visitedBody (readItem : ℕ → Except ThrownError (CborValue × ℕ)) (visitItem : ℕ → List ℕ)
    (majorType value offset : ℕ) : List ℕ :=
  match majorType with
  | 4 => visitedItems readItem visitItem (toNumber value) offset
  | 5 => visitedEntries readItem visitItem (toNumber value) offset
  | 6 => visitItem offset
  | _ => []

/-- The offsets at which `read` is called for the item at an offset, in order. -/
def visited : ℕ → ℕ → List ℕ
  | 0, offset => [offset]
  | stack + 1, offset =>
    offset ::
      match header data offset with
      | .error _ => []
      | .ok (majorType, _, value, next) =>
        visitedBody (read data decodeText stack) (visited stack) majorType value next

end Calls

/-- Offsets in increasing order within bounds, the upper one excluded. -/
def Climbs (low high : ℕ) (offsets : List ℕ) : Prop :=
  offsets.Pairwise (· < ·) ∧ ∀ o ∈ offsets, low ≤ o ∧ o < high

theorem Climbs.append {low middle high : ℕ} {first rest : List ℕ} (hfirst : Climbs low middle first)
    (hrest : Climbs middle high rest) (hlow : low ≤ middle) (hhigh : middle ≤ high) :
    Climbs low high (first ++ rest) := by
  refine ⟨List.pairwise_append.mpr ⟨hfirst.1, hrest.1, ?_⟩, ?_⟩
  · intro a ha b hb
    exact (hfirst.2 a ha).2.trans_le (hrest.2 b hb).1
  · intro o ho
    rcases List.mem_append.mp ho with hmem | hmem
    · exact ⟨(hfirst.2 o hmem).1, (hfirst.2 o hmem).2.trans_le hhigh⟩
    · exact ⟨hlow.trans (hrest.2 o hmem).1, (hrest.2 o hmem).2⟩

/-- There are no more of them than numbers within the bounds. -/
theorem Climbs.length_le {low high : ℕ} {offsets : List ℕ} (h : Climbs low high offsets) :
    offsets.length ≤ high - low := by
  have hnodup : offsets.Nodup := h.1.imp fun hlt => Nat.ne_of_lt hlt
  have hsubset : offsets.toFinset ⊆ Finset.Ico low high := by
    intro o ho
    exact Finset.mem_Ico.mpr (h.2 o (List.mem_toFinset.mp ho))
  have hcard := Finset.card_le_card hsubset
  rwa [List.toFinset_card_of_nodup hnodup, Nat.card_Ico] at hcard

/-- Where the calls for a part end: before the offset after it, or anywhere in the data. -/
def bound {α : Type} (limit : ℕ) : Except ThrownError (α × ℕ) → ℕ
  | .ok (_, next) => next
  | .error _ => limit + 1

theorem le_bound {α : Type} {limit low : ℕ} {result : Except ThrownError (α × ℕ)}
    (hlow : low ≤ limit) (h : ∀ a next, result = .ok (a, next) → low ≤ next) :
    low ≤ bound limit result := by
  cases result with
  | error error => exact Nat.le_succ_of_le hlow
  | ok read => exact h read.1 read.2 rfl

theorem bound_le {α : Type} {limit : ℕ} {result : Except ThrownError (α × ℕ)}
    (h : ∀ a next, result = .ok (a, next) → next ≤ limit) : bound limit result ≤ limit + 1 := by
  cases result with
  | error error => exact le_rfl
  | ok read => exact Nat.le_succ_of_le (h read.1 read.2 rfl)

/-- A value put together of what was read ends where that ends. -/
theorem bound_map {α β : Type} (limit : ℕ) (result : Except ThrownError (α × ℕ)) (f : α → β) :
    bound limit (result >>= fun read => pure (f read.1, read.2)) = bound limit result := by
  cases result <;> rfl

variable {limit length : ℕ} {visitItem : ℕ → List ℕ}

/-- The loop over items makes its calls at increasing offsets. -/
theorem visitedItems_climbs (hitem : Advances limit readItem)
    (hvisit : ∀ o, o ≤ limit → Climbs o (bound limit (readItem o)) (visitItem o))
    (hoffset : offset ≤ limit) :
    Climbs offset (bound limit (readItems readItem length offset))
      (visitedItems readItem visitItem length offset) := by
  induction length generalizing offset with
  | zero => exact ⟨List.Pairwise.nil, fun o ho => absurd ho List.not_mem_nil⟩
  | succ length ih =>
    have hfirstVisits := hvisit offset hoffset
    rw [readItems, visitedItems]
    cases hfirst : readItem offset with
    | error error =>
      rw [hfirst] at hfirstVisits
      rw [List.append_nil]
      exact hfirstVisits
    | ok first =>
      rw [hfirst] at hfirstVisits
      obtain ⟨hlt, hbetween⟩ := hitem _ _ _ hfirst
      have hrest := ih hbetween
      have hsame := bound_map limit (readItems readItem length first.2)
        fun items => first.1 :: items
      change Climbs offset (bound limit (readItems readItem length first.2 >>= fun read =>
        pure (first.1 :: read.1, read.2))) _
      rw [hsame]
      exact hfirstVisits.append hrest hlt.le
        (le_bound hbetween fun _ _ h => (hitem.readItems hbetween h).1)

/-- The loop over entries makes its calls at increasing offsets. -/
theorem visitedEntries_climbs {earlier : List (CborValue × CborValue)}
    (hitem : Advances limit readItem)
    (hvisit : ∀ o, o ≤ limit → Climbs o (bound limit (readItem o)) (visitItem o))
    (hoffset : offset ≤ limit) :
    Climbs offset (bound limit (readEntries readItem length earlier offset))
      (visitedEntries readItem visitItem length offset) := by
  induction length generalizing offset earlier with
  | zero => exact ⟨List.Pairwise.nil, fun o ho => absurd ho List.not_mem_nil⟩
  | succ length ih =>
    have hkeyVisits := hvisit offset hoffset
    rw [readEntries, visitedEntries]
    cases hkey : readItem offset with
    | error error =>
      rw [hkey] at hkeyVisits
      rw [List.append_nil]
      exact hkeyVisits
    | ok key =>
      rw [hkey] at hkeyVisits
      obtain ⟨hlt, hbetween⟩ := hitem _ _ _ hkey
      have hvalueVisits := hvisit key.2 hbetween
      change Climbs offset (bound limit (readItem key.2 >>= fun value =>
        readEntries readItem length (setEntry earlier key.1 value.1) value.2)) _
      dsimp only
      cases hvalue : readItem key.2 with
      | error error =>
        rw [hvalue] at hvalueVisits
        rw [List.append_nil]
        exact hkeyVisits.append hvalueVisits hlt.le (Nat.le_succ_of_le hbetween)
      | ok value =>
        rw [hvalue] at hvalueVisits
        obtain ⟨hlt', hbehind⟩ := hitem _ _ _ hvalue
        have hrest := @ih value.2 (setEntry earlier key.1 value.1) hbehind
        have hend : value.2 ≤
            bound limit (readEntries readItem length (setEntry earlier key.1 value.1) value.2) :=
          le_bound hbehind fun _ _ h => (hitem.readEntries hbehind h).1
        exact hkeyVisits.append (hvalueVisits.append hrest hlt'.le hend) hlt.le
          (hlt'.le.trans hend)

theorem climbs_nil (low high : ℕ) : Climbs low high [] :=
  ⟨List.Pairwise.nil, fun _ h => absurd h List.not_mem_nil⟩

/-- The calls for what follows a header stand at increasing offsets. -/
theorem visitedBody_climbs (hitem : Advances limit readItem)
    (hvisit : ∀ o, o ≤ limit → Climbs o (bound limit (readItem o)) (visitItem o))
    (hoffset : offset ≤ limit) :
    Climbs offset (bound limit (readBody data decodeText readItem majorType info value offset))
      (visitedBody readItem visitItem majorType value offset) := by
  unfold visitedBody
  split
  · have hbound := bound_map limit (readItems readItem (toNumber value) offset) CborValue.array
    change Climbs offset (bound limit (readItems readItem (toNumber value) offset >>= fun read =>
      pure (CborValue.array read.1, read.2))) _
    rw [hbound]
    exact visitedItems_climbs hitem hvisit hoffset
  · have hbound := bound_map limit (readEntries readItem (toNumber value) [] offset) CborValue.map
    change Climbs offset (bound limit (readEntries readItem (toNumber value) [] offset >>=
      fun read => pure (CborValue.map read.1, read.2))) _
    rw [hbound]
    exact visitedEntries_climbs hitem hvisit hoffset
  · exact hvisit offset hoffset
  · exact climbs_nil _ _

/-- The calls for an item stand at increasing offsets within the data, each before the end of the
item if it has one. -/
theorem visited_climbs (data : Bytes) (decodeText : Bytes → String) (stack : ℕ) :
    ∀ offset, offset ≤ data.length →
      Climbs offset (bound data.length (read data decodeText stack offset))
        (visited data decodeText stack offset) := by
  have hself : ∀ offset, offset ≤ data.length → Climbs offset (data.length + 1) [offset] := by
    intro offset hoffset
    refine ⟨List.pairwise_singleton _ _, fun o ho => ?_⟩
    rw [List.mem_singleton.mp ho]
    exact ⟨le_rfl, Nat.lt_succ_of_le hoffset⟩
  induction stack with
  | zero => exact hself
  | succ stack ih =>
    intro offset hoffset
    have hadvances := advances_read data decodeText stack
    rw [read_succ, visited]
    cases hheader : header data offset with
    | error error => exact hself offset hoffset
    | ok start =>
      obtain ⟨majorType, info, value, between⟩ := start
      obtain ⟨hlt, hbetween⟩ := header_bounds hheader
      have hbody := @visitedBody_climbs data decodeText _ majorType info value between _ _
        hadvances ih hbetween
      have hfirst : Climbs offset between [offset] := by
        refine ⟨List.pairwise_singleton _ _, fun o ho => ?_⟩
        rw [List.mem_singleton.mp ho]
        exact ⟨le_rfl, hlt⟩
      refine hfirst.append hbody hlt.le (le_bound hbetween fun _ _ h => ?_)
      exact (hadvances.body hbetween (readBody_eq_ok_iff.mp h)).1

/-- The reader ends inside its data.  At every offset up to the end, and with any stack of more
calls than there are bytes left: the result is the same and is not that the stack is exceeded; the
calls made stand at increasing offsets, none beyond the end, and are no more than the bytes left and
one; and where a value is returned, a byte at least has been consumed and none beyond the end, and
any data that begins with the same bytes gives the same. -/
theorem read_bounded (data : Bytes) (decodeText : Bytes → String) {stack offset : ℕ}
    (hoffset : offset ≤ data.length) (hstack : data.length - offset < stack) :
    read data decodeText stack offset =
        read data decodeText (data.length - offset + 1) offset ∧
      read data decodeText stack offset ≠ .error stackExceeded ∧
      (visited data decodeText stack offset).Pairwise (· < ·) ∧
      (∀ o ∈ visited data decodeText stack offset, offset ≤ o ∧ o ≤ data.length) ∧
      (visited data decodeText stack offset).length ≤ data.length - offset + 1 ∧
      ∀ item next, read data decodeText stack offset = .ok (item, next) →
        offset < next ∧ next ≤ data.length ∧
          (∀ data' : Bytes, data'.take next = data.take next →
            read data' decodeText stack offset = .ok (item, next)) ∧
          ∀ suffix : Bytes,
            read (data ++ suffix) decodeText stack offset = .ok (item, next) := by
  have hclimbs := visited_climbs data decodeText stack offset hoffset
  have hadvances := advances_read data decodeText stack
  have hbound := bound_le fun item next h => (hadvances offset item next h).2
  have hcount := hclimbs.length_le
  refine ⟨read_eq_of_lt data decodeText hstack, (read_stack data decodeText hstack).2, hclimbs.1,
    ?_, by omega, ?_⟩
  · intro o ho
    have hrange := hclimbs.2 o ho
    omega
  · intro item next h
    obtain ⟨hlt, hnext⟩ := hadvances offset item next h
    have hlocal : ∀ data' : Bytes, data'.take next = data.take next →
        read data' decodeText stack offset = .ok (item, next) :=
      fun data' hsame => local_read data data' decodeText stack offset item next hsame h
    exact ⟨hlt, hnext, hlocal, fun suffix => hlocal _ (List.take_append_of_le_length hnext)⟩

/-- An array that announces 2^64 - 1 items and has one. -/
theorem read_bounded_sample :
    read [0x9b, 0xff, 0xff, 0xff, 0xff, 0xff, 0xff, 0xff, 0xff, 0x01] (fun _ => "") 12 0 ≠
      .error stackExceeded :=
  (@read_bounded [0x9b, 0xff, 0xff, 0xff, 0xff, 0xff, 0xff, 0xff, 0xff, 0x01] (fun _ => "") 12 0
    (by decide) (by decide)).2.1

end

end Verixa.Mfa.Cbor
