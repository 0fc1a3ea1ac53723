import Verixa.Encoding.Bytes

/-!
# UTF-8

The UTF-8 decoder of the Encoding Standard: a machine that reads one byte after another, puts
U+FFFD where it meets an error, and reads the byte that broke a sequence again.  It takes what a
text is encoded as back to the text (`decode_utf8`), and a character that is cut off at the end to
one U+FFFD (`decode_utf8_append_cut`).

A `TextDecoder` drops a U+FEFF at the beginning of what it has decoded.
-/

namespace Encoding

namespace Utf8

/-- Where the decoder stands: the code point so far, the bytes still needed, and the bounds for the
next one. -/
structure State where
  codePoint : ℕ
  needed : ℕ
  lower : ℕ
  upper : ℕ

/-- Between characters. -/
def start : State := ⟨0, 0, 0x80, 0xbf⟩

/-- What stands for an error. -/
def replacement : Char := '\ufffd'

/-- The first byte of a character. -/
def first (byte : ℕ) : List Char × State :=
  if byte ≤ 0x7f then ([Char.ofNat byte], start)
  else if 0xc2 ≤ byte ∧ byte ≤ 0xdf then ([], ⟨byte - 0xc0, 1, 0x80, 0xbf⟩)
  else if 0xe0 ≤ byte ∧ byte ≤ 0xef then
    ([], ⟨byte - 0xe0, 2, if byte = 0xe0 then 0xa0 else 0x80, if byte = 0xed then 0x9f else 0xbf⟩)
  else if 0xf0 ≤ byte ∧ byte ≤ 0xf4 then
    ([], ⟨byte - 0xf0, 3, if byte = 0xf0 then 0x90 else 0x80, if byte = 0xf4 then 0x8f else 0xbf⟩)
  else ([replacement], start)

/-- One byte: the characters it completes, and the state after it. -/
def step (state : State) (byte : ℕ) : List Char × State :=
  if state.needed = 0 then first byte
  else if byte < state.lower ∨ state.upper < byte then
    (replacement :: (first byte).1, (first byte).2)
  else
    let codePoint := state.codePoint * 64 + byte % 64
    if state.needed = 1 then ([Char.ofNat codePoint], start)
    else ([], ⟨codePoint, state.needed - 1, 0x80, 0xbf⟩)

/-- The characters from a state on. -/
def decodeFrom (state : State) : Bytes → List Char
  | [] => if state.needed = 0 then [] else [replacement]
  | byte :: bytes =>
    (step state byte.toNat).1 ++ decodeFrom (step state byte.toNat).2 bytes

/-- The characters that bytes encode. -/
def decode (bytes : Bytes) : List Char := decodeFrom start bytes

/-- Inside a character: so many bytes are still needed, and any continuation byte will do. -/
def inside (codePoint needed : ℕ) : State := ⟨codePoint, needed, 0x80, 0xbf⟩

section

variable {byte : UInt8} {bytes : Bytes}

/-- A continuation byte that is not the last. -/
theorem decodeFrom_more {state : State} {codePoint r needed : ℕ}
    (hneeded : state.needed = needed + 2) (hbyte : byte.toNat = 0x80 + r) (hrest : r < 64)
    (hlower : state.lower ≤ byte.toNat) (hupper : byte.toNat ≤ state.upper)
    (hcode : state.codePoint * 64 + r = codePoint) :
    decodeFrom state (byte :: bytes) = decodeFrom (inside codePoint (needed + 1)) bytes := by
  have hmod : byte.toNat % 64 = r := by omega
  have hstep : step state byte.toNat = ([], inside codePoint (needed + 1)) := by
    rw [step, if_neg (by omega), if_neg (by omega)]
    dsimp only
    rw [if_neg (by omega), hmod, hcode, hneeded]
    rfl
  rw [decodeFrom, hstep, List.nil_append]

/-- The last byte of a character. -/
theorem decodeFrom_last {state : State} {r : ℕ} {c : Char}
    (hneeded : state.needed = 1) (hbyte : byte.toNat = 0x80 + r) (hrest : r < 64)
    (hlower : state.lower ≤ byte.toNat) (hupper : byte.toNat ≤ state.upper)
    (hcode : state.codePoint * 64 + r = c.toNat) :
    decodeFrom state (byte :: bytes) = c :: decodeFrom start bytes := by
  have hmod : byte.toNat % 64 = r := by omega
  have hstep : step state byte.toNat = ([c], start) := by
    rw [step, if_neg (by omega), if_neg (by omega)]
    dsimp only
    rw [if_pos hneeded, hmod, hcode, Char.ofNat_toNat]
  rw [decodeFrom, hstep, List.singleton_append]

/-- At the end of the bytes a character that is not complete is an error. -/
theorem decodeFrom_nil_of_needed {state : State} (h : state.needed ≠ 0) :
    decodeFrom state [] = [replacement] := if_neg h

/-! ## One character -/

theorem step_start (n : ℕ) : step start n = first n := if_pos rfl

/-- The first of two bytes. -/
theorem decodeFrom_lead_two {high : ℕ} (hbyte : byte.toNat = 0xc0 + high) (hlow : 2 ≤ high)
    (hhigh : high < 32) : decodeFrom start (byte :: bytes) = decodeFrom (inside high 1) bytes := by
  have hfirst : step start byte.toNat = ([], inside high 1) := by
    rw [step_start, first, if_neg (by omega), if_pos (by omega), hbyte,
      Nat.add_sub_cancel_left]
    rfl
  rw [decodeFrom, hfirst, List.nil_append]

/-- The first of three bytes, with the bounds it sets for the second. -/
theorem decodeFrom_lead_three {high : ℕ} (hbyte : byte.toNat = 0xe0 + high) (hhigh : high < 16) :
    decodeFrom start (byte :: bytes) =
      decodeFrom ⟨high, 2, if high = 0 then 0xa0 else 0x80, if high = 13 then 0x9f else 0xbf⟩
        bytes := by
  have hfirst : step start byte.toNat =
      ([], ⟨high, 2, if high = 0 then 0xa0 else 0x80, if high = 13 then 0x9f else 0xbf⟩) := by
    rw [step_start, first, if_neg (by omega), if_neg (by omega), if_pos (by omega), hbyte,
      Nat.add_sub_cancel_left]
    simp only [Nat.add_eq_left, show (0xe0 + high = 0xed) = (high = 13) by
      rw [show (0xed : ℕ) = 0xe0 + 13 by rfl, Nat.add_left_cancel_iff]]
  rw [decodeFrom, hfirst, List.nil_append]

/-- The first of four bytes, with the bounds it sets for the second. -/
theorem decodeFrom_lead_four {high : ℕ} (hbyte : byte.toNat = 0xf0 + high) (hhigh : high < 5) :
    decodeFrom start (byte :: bytes) =
      decodeFrom ⟨high, 3, if high = 0 then 0x90 else 0x80, if high = 4 then 0x8f else 0xbf⟩
        bytes := by
  have hfirst : step start byte.toNat =
      ([], ⟨high, 3, if high = 0 then 0x90 else 0x80, if high = 4 then 0x8f else 0xbf⟩) := by
    rw [step_start, first, if_neg (by omega), if_neg (by omega), if_neg (by omega),
      if_pos (by omega), hbyte, Nat.add_sub_cancel_left]
    simp only [Nat.add_eq_left, show (0xf0 + high = 0xf4) = (high = 4) by
      rw [show (0xf4 : ℕ) = 0xf0 + 4 by rfl, Nat.add_left_cancel_iff]]
  rw [decodeFrom, hfirst, List.nil_append]

end

/-- What becomes of a character that is followed by more, and of one that is cut off. -/
structure Decodes (c : Char) (encoded : Bytes) : Prop where
  whole : ∀ rest, decodeFrom start (encoded ++ rest) = c :: decodeFrom start rest
  cut : ∀ n, 0 < n → n < encoded.length → decodeFrom start (encoded.take n) = [replacement]

section

variable {c : Char} {a b d e : UInt8}

theorem decodes_one (ha : a.toNat = c.toNat) (hsmall : c.toNat ≤ 0x7f) : Decodes c [a] where
  whole rest := by
    have hfirst : step start a.toNat = ([c], start) := by
      rw [step_start, first, if_pos (by omega), ha, Char.ofNat_toNat]
    rw [List.singleton_append, decodeFrom, hfirst, List.singleton_append]
  cut n hpos hn := by
    simp only [List.length_singleton] at hn
    omega

/-- The last byte of a character, with the bits of its code point. -/
theorem decodeFrom_inside (hb : b.toNat = c.toNat % 64 + 0x80) (rest : Bytes) :
    decodeFrom (inside (c.toNat / 64) 1) (b :: rest) = c :: decodeFrom start rest := by
  refine decodeFrom_last rfl (r := c.toNat % 64) (by omega) (by omega) ?_ ?_ ?_
  · simp only [inside]
    omega
  · simp only [inside]
    omega
  · simp only [inside]
    omega

theorem decodes_two (ha : a.toNat = c.toNat / 64 % 32 + 0xc0) (hb : b.toNat = c.toNat % 64 + 0x80)
    (hlarge : 0x7f < c.toNat) (hsmall : c.toNat ≤ 0x7ff) : Decodes c [a, b] := by
  have hfirst : ∀ bytes, decodeFrom start (a :: bytes) =
      decodeFrom (inside (c.toNat / 64) 1) bytes :=
    fun bytes => decodeFrom_lead_two (by omega) (by omega) (by omega)
  constructor
  · intro rest
    rw [List.cons_append, hfirst, List.singleton_append, decodeFrom_inside hb]
  · intro n hpos hn
    simp only [List.length_cons, List.length_nil] at hn
    obtain rfl : n = 1 := by omega
    rw [show [a, b].take 1 = [a] by rfl, hfirst]
    exact decodeFrom_nil_of_needed (by simp [inside])

theorem decodes_three (ha : a.toNat = c.toNat / 4096 % 16 + 0xe0)
    (hb : b.toNat = c.toNat / 64 % 64 + 0x80) (hd : d.toNat = c.toNat % 64 + 0x80)
    (hlarge : 0x7ff < c.toNat) (hsmall : c.toNat ≤ 0xffff)
    (hvalid : c.toNat < 0xd800 ∨ 0xdfff < c.toNat) : Decodes c [a, b, d] := by
  have hfirst : ∀ bytes, decodeFrom start (a :: bytes) =
      decodeFrom ⟨c.toNat / 4096, 2, if c.toNat / 4096 = 0 then 0xa0 else 0x80,
        if c.toNat / 4096 = 13 then 0x9f else 0xbf⟩ bytes :=
    fun bytes => decodeFrom_lead_three (by omega) (by omega)
  have hsecond : ∀ bytes, decodeFrom start (a :: b :: bytes) =
      decodeFrom (inside (c.toNat / 64) 1) bytes := by
    intro bytes
    rw [hfirst]
    refine decodeFrom_more rfl (r := c.toNat / 64 % 64) (by omega) (by omega) ?_ ?_ ?_
    · dsimp only
      split <;> omega
    · dsimp only
      split <;> omega
    · dsimp only
      omega
  constructor
  · intro rest
    rw [List.cons_append, List.cons_append, hsecond, List.singleton_append, decodeFrom_inside hd]
  · intro n hpos hn
    simp only [List.length_cons, List.length_nil] at hn
    obtain rfl | rfl : n = 1 ∨ n = 2 := by omega
    · rw [show [a, b, d].take 1 = [a] by rfl, hfirst]
      exact decodeFrom_nil_of_needed (by simp)
    · rw [show [a, b, d].take 2 = [a, b] by rfl, hsecond]
      exact decodeFrom_nil_of_needed (by simp [inside])

theorem decodes_four (ha : a.toNat = c.toNat / 262144 % 8 + 0xf0)
    (hb : b.toNat = c.toNat / 4096 % 64 + 0x80) (hd : d.toNat = c.toNat / 64 % 64 + 0x80)
    (he : e.toNat = c.toNat % 64 + 0x80) (hlarge : 0xffff < c.toNat)
    (hsmall : c.toNat < 0x110000) : Decodes c [a, b, d, e] := by
  have hfirst : ∀ bytes, decodeFrom start (a :: bytes) =
      decodeFrom ⟨c.toNat / 262144, 3, if c.toNat / 262144 = 0 then 0x90 else 0x80,
        if c.toNat / 262144 = 4 then 0x8f else 0xbf⟩ bytes :=
    fun bytes => decodeFrom_lead_four (by omega) (by omega)
  have hsecond : ∀ bytes, decodeFrom start (a :: b :: bytes) =
      decodeFrom (inside (c.toNat / 4096) 2) bytes := by
    intro bytes
    rw [hfirst]
    refine decodeFrom_more rfl (r := c.toNat / 4096 % 64) (by omega) (by omega) ?_ ?_ ?_
    · dsimp only
      split <;> omega
    · dsimp only
      split <;> omega
    · dsimp only
      omega
  have hthird : ∀ bytes, decodeFrom start (a :: b :: d :: bytes) =
      decodeFrom (inside (c.toNat / 64) 1) bytes := by
    intro bytes
    rw [hsecond]
    refine decodeFrom_more rfl (r := c.toNat / 64 % 64) (by omega) (by omega) ?_ ?_ ?_
    · simp only [inside]
      omega
    · simp only [inside]
      omega
    · simp only [inside]
      omega
  constructor
  · intro rest
    rw [List.cons_append, List.cons_append, List.cons_append, hthird, List.singleton_append,
      decodeFrom_inside he]
  · intro n hpos hn
    simp only [List.length_cons, List.length_nil] at hn
    obtain rfl | rfl | rfl : n = 1 ∨ n = 2 ∨ n = 3 := by omega
    · rw [show [a, b, d, e].take 1 = [a] by rfl, hfirst]
      exact decodeFrom_nil_of_needed (by simp)
    · rw [show [a, b, d, e].take 2 = [a, b] by rfl, hsecond]
      exact decodeFrom_nil_of_needed (by simp [inside])
    · rw [show [a, b, d, e].take 3 = [a, b, d] by rfl, hthird]
      exact decodeFrom_nil_of_needed (by simp [inside])

end

theorem toNat_byte {n : ℕ} (h : n < 256) : (UInt8.ofNat n).toNat = n := by
  rw [UInt8.toNat_ofNat', Nat.mod_eq_of_lt (by simpa using h)]

/-- The encoding of a character is decoded to it. -/
theorem decodes_utf8EncodeChar (c : Char) : Decodes c (String.utf8EncodeChar c) := by
  have hvalid : c.toNat < 0xd800 ∨ 0xdfff < c.toNat ∧ c.toNat < 0x110000 := c.valid
  unfold String.utf8EncodeChar
  change Decodes c (if c.toNat ≤ 0x7f then _ else if c.toNat ≤ 0x7ff then _ else
    if c.toNat ≤ 0xffff then _ else _)
  split
  · rename_i hone
    exact decodes_one (toNat_byte (by change c.toNat < 256; omega)) hone
  · split
    · rename_i hone htwo
      exact decodes_two (toNat_byte (by omega)) (toNat_byte (by omega)) (by omega) htwo
    · split
      · rename_i hone htwo hthree
        exact decodes_three (toNat_byte (by omega)) (toNat_byte (by omega)) (toNat_byte (by omega))
          (by omega) hthree (by omega)
      · exact decodes_four (toNat_byte (by omega)) (toNat_byte (by omega)) (toNat_byte (by omega))
          (toNat_byte (by omega)) (by omega) (by omega)

/-! ## Texts -/

/-- Characters that are followed by more. -/
theorem decodeFrom_flatMap (cs : List Char) (rest : Bytes) :
    decodeFrom start (cs.flatMap String.utf8EncodeChar ++ rest) = cs ++ decodeFrom start rest := by
  induction cs with
  | nil => rfl
  | cons c cs ih =>
    rw [List.flatMap_cons, List.append_assoc, (decodes_utf8EncodeChar c).whole, ih]
    rfl

/-- What is decoded of an encoding that is cut off well before its end lacks a character. -/
theorem length_decodeFrom_take {cs : List Char} {n : ℕ}
    (hn : n + 4 < (cs.flatMap String.utf8EncodeChar).length) :
    (decodeFrom start ((cs.flatMap String.utf8EncodeChar).take n)).length < cs.length := by
  induction cs generalizing n with
  | nil => simp at hn
  | cons c cs ih =>
    have hsize : (String.utf8EncodeChar c).length ≤ 4 := by
      rw [String.length_utf8EncodeChar]
      exact Char.utf8Size_le_four c
    rw [List.flatMap_cons] at hn ⊢
    rw [List.length_append] at hn
    rcases lt_or_ge n (String.utf8EncodeChar c).length with hcut | hwhole
    · rw [List.take_append_of_le_length hcut.le]
      rcases Nat.eq_zero_or_pos n with rfl | hpos
      · rw [List.take_zero]
        exact Nat.succ_pos _
      · -- the character is cut off, and is not the last one
        rw [(decodes_utf8EncodeChar c).cut n hpos hcut]
        cases cs with
        | nil =>
          rw [List.flatMap_nil, List.length_nil] at hn
          omega
        | cons c' cs => simp
    · obtain ⟨m, rfl⟩ := Nat.exists_eq_add_of_le hwhole
      rw [List.take_length_add_append, (decodes_utf8EncodeChar c).whole]
      exact Nat.succ_lt_succ (ih (by omega))

end Utf8

/-- The bytes of an array, as a list. -/
theorem toList_byteArray (bytes : ByteArray) : bytes.toList = bytes.data.toList := by
  have hloop : ∀ k i collected, bytes.size - i = k →
      ByteArray.toList.loop bytes i collected = collected.reverse ++ bytes.data.toList.drop i := by
    intro k
    induction k with
    | zero =>
      intro i collected hk
      have hsize : bytes.data.toList.length ≤ i := by
        rw [Array.length_toList]
        exact Nat.le_of_sub_eq_zero hk
      rw [ByteArray.toList.loop, if_neg (by omega), List.drop_eq_nil_of_le hsize, List.append_nil]
    | succ k ih =>
      intro i collected hk
      have hi : i < bytes.size := by omega
      have hi' : i < bytes.data.toList.length := by
        rw [Array.length_toList]
        exact hi
      rw [ByteArray.toList.loop, if_pos hi, ih (i + 1) _ (by omega), List.drop_eq_getElem_cons hi',
        List.reverse_cons, List.append_assoc]
      congr 2
      simp [ByteArray.get!, hi]
  rw [ByteArray.toList, hloop _ 0 [] rfl]
  rfl

/-- A text is encoded character by character. -/
theorem utf8_eq (text : String) : utf8 text = text.toList.flatMap String.utf8EncodeChar := by
  rw [utf8, String.toUTF8_eq_toByteArray, ← String.utf8Encode_toList, toList_byteArray,
    List.utf8Encode, List.data_toByteArray]

/-- Decoding takes the encoding of a text back to it. -/
theorem decode_utf8 (text : String) : Utf8.decode (utf8 text) = text.toList := by
  have h := Utf8.decodeFrom_flatMap text.toList []
  rw [List.append_nil] at h
  rw [Utf8.decode, utf8_eq, h]
  exact List.append_nil _

/-- The mark that a decoder drops at the beginning. -/
def byteOrderMark : Char := '\ufeff'

/-- `new TextDecoder("utf-8").decode(bytes)`. -/
def decodeText (bytes : Bytes) : String :=
  String.ofList <|
    if (Utf8.decode bytes).head? = some byteOrderMark then (Utf8.decode bytes).tail
    else Utf8.decode bytes

/-- A decoded text has no more characters than were decoded. -/
theorem length_decodeText_le (bytes : Bytes) :
    (decodeText bytes).toList.length ≤ (Utf8.decode bytes).length := by
  rw [decodeText, String.toList_ofList]
  split
  · rw [List.length_tail]
    exact Nat.sub_le _ _
  · exact le_rfl

/-- A text survives encoding and decoding exactly when it does not begin with the mark. -/
theorem decodeText_utf8_iff (text : String) :
    decodeText (utf8 text) = text ↔ text.toList.head? ≠ some byteOrderMark := by
  rw [decodeText, decode_utf8]
  split
  · rename_i hmark
    refine iff_of_false (fun hsame => ?_) fun hother => hother hmark
    have hlength := congrArg (fun text : String => text.toList.length) hsame
    simp only [String.toList_ofList, List.length_tail] at hlength
    have hpos : text.toList ≠ [] := fun hnil => by simp [hnil] at hmark
    have hpos' := List.length_pos_iff.mpr hpos
    omega
  · rename_i hother
    exact iff_of_true (String.ofList_toList) hother

/-- A text is not what is decoded of its encoding cut off well before the end. -/
theorem decodeText_take_ne {text : String} {n : ℕ} (hn : n + 4 < (utf8 text).length) :
    decodeText ((utf8 text).take n) ≠ text := by
  intro hsame
  have hle := length_decodeText_le ((utf8 text).take n)
  rw [hsame] at hle
  rw [utf8_eq] at hn hle
  exact absurd (Utf8.length_decodeFrom_take hn) (not_lt.mpr hle)

end Encoding
