import Verixa.Encoding.Bits
import Verixa.Encoding.CodeUnits

/-!
# Base32

The secret of an authenticator app is shown as a text.  Both directions keep the bits that wait
for their turn in the low end of an integer whose high bits are lost, here as a 32-bit word.

* `encode` writes the base32 of RFC 4648 without padding (`encode_eq_rfc4648`).
* `decode` gives the bytes back, whatever the case of the letters and whatever number of `=` ends
  the text.
-/

namespace Verixa.Mfa

open Encoding

namespace Base32

/-- `alphabet`. -/
def alphabet : CodeUnits :=
  "ABCDEFGHIJKLMNOPQRSTUVWXYZ234567".toList.map fun c => UInt16.ofNat c.toNat

/-- `alphabet[index]`, for an index that the alphabet has. -/
def letter (index : ℕ) : UInt16 := alphabet.getD index 0

/-! ## Writing -/

/-- The variables of the loop in `encode`. -/
structure Encoder where
  bits : ℕ
  value : UInt32
  output : CodeUnits

/-- `while (bits >= 5)`: a letter for each five bits that wait. -/
def drain (value : UInt32) : ℕ → CodeUnits → Encoder
  | bits + 5, output =>
    drain value bits (output ++ [letter ((value >>> UInt32.ofNat bits) &&& 31).toNat])
  | bits, output => ⟨bits, value, output⟩

/-- One round of the loop over the bytes. -/
def encodeByte (s : Encoder) (byte : UInt8) : Encoder :=
  drain ((s.value <<< 8) ||| byte.toUInt32) (s.bits + 8) s.output

/-- `encode(buffer)`. -/
def encode (buffer : Bytes) : CodeUnits :=
  let s := buffer.foldl encodeByte ⟨0, 0, []⟩
  if s.bits > 0 then
    s.output ++ [letter ((s.value <<< UInt32.ofNat (5 - s.bits)) &&& 31).toNat]
  else s.output

/-! ## Reading -/

/-- The variables of the loop in `decode`. -/
structure Decoder where
  bits : ℕ
  value : UInt32
  index : ℕ
  output : Bytes

/-- The message of the error for a character that is not in the alphabet. -/
def invalidCharacter (char : UInt16) : CodeUnits :=
  unitsOf "Invalid base32 character: " ++ [char]

/-- One round of the loop over the characters.  What is written past the end of the output is
lost. -/
def decodeChar (s : Decoder) (char : UInt16) : Except CodeUnits Decoder :=
  match alphabet.idxOf? char with
  | none => .error (invalidCharacter char)
  | some charVal =>
    let value := (s.value <<< 5) ||| UInt32.ofNat charVal
    let bits := s.bits + 5
    if bits ≥ 8 then
      let byte := ((value >>> UInt32.ofNat (bits - 8)) &&& 255).toUInt8
      .ok ⟨bits - 8, value, s.index + 1, s.output.set s.index byte⟩
    else .ok { s with bits := bits, value := value }

/-- `input.toUpperCase().replace(/=+$/, "")`. -/
def cleaned (casing : UpperCasing) (input : CodeUnits) : CodeUnits :=
  (casing.toUpperCase input).rdropWhile fun unit => unit == 61

/-- `decode(input)`. -/
def decode (casing : UpperCasing) (input : CodeUnits) : Except CodeUnits Bytes :=
  let cleaned := cleaned casing input
  let output := List.replicate (cleaned.length * 5 / 8) (0 : UInt8)
  (cleaned.foldlM decodeChar ⟨0, 0, 0, output⟩).map Decoder.output

/-! ## The base32 of RFC 4648 -/

/-- Rows of five bits, the last filled up with zeros. -/
def quintets : List Bool → List (List Bool)
  | a :: b :: c :: d :: e :: bits => [a, b, c, d, e] :: quintets bits
  | [] => []
  | bits => [bits ++ List.replicate (5 - bits.length) false]

/-- The letter that stands for the value of five bits: `A` to `Z`, then `2` to `7`. -/
def rfc4648Digit (value : ℕ) : UInt16 :=
  UInt16.ofNat (if value < 26 then 65 + value else 50 + (value - 26))

/-- The base32 of RFC 4648 without padding. -/
def rfc4648 (bytes : Bytes) : CodeUnits :=
  (quintets (bitsOf bytes)).map fun row => rfc4648Digit (ofBits row)

/-- The table of letters is the one of RFC 4648, none of which is `=` or a small letter, and each
letter is found at its place. -/
theorem letter_spec : ∀ n < 32, letter n = rfc4648Digit n ∧ alphabet.idxOf? (letter n) = some n ∧
    letter n ≠ 61 ∧ (letter n).toNat < 0x80 ∧ upperUnit (letter n) = letter n := by
  decide +kernel

/-- The letters for a row of bits. -/
def letters (bits : List Bool) : CodeUnits := (quintets bits).map fun row => letter (ofBits row)

/-- Five bits at the head make a letter. -/
theorem letters_append {head : List Bool} (hhead : head.length = 5) (bits : List Bool) :
    letters (head ++ bits) = letter (ofBits head) :: letters bits := by
  obtain ⟨a, b, c, d, e, rfl⟩ : ∃ a b c d e, head = [a, b, c, d, e] := by
    rcases head with _ | ⟨a, _ | ⟨b, _ | ⟨c, _ | ⟨d, _ | ⟨e, bits⟩⟩⟩⟩⟩
    case cons.cons.cons.cons.cons =>
      cases bits with
      | nil => exact ⟨a, b, c, d, e, rfl⟩
      | cons f bits => simp only [List.length_cons] at hhead; omega
    all_goals simp only [List.length_cons, List.length_nil] at hhead; omega
  rfl

/-- Fewer than five bits, but some, make the last letter. -/
theorem letters_of_lt {bits : List Bool} (hsome : 0 < bits.length) (h : bits.length < 5) :
    letters bits = [letter (ofBits (bits ++ List.replicate (5 - bits.length) false))] := by
  rcases bits with _ | ⟨a, _ | ⟨b, _ | ⟨c, _ | ⟨d, _ | ⟨e, bits⟩⟩⟩⟩⟩
  case nil => exact absurd hsome (Nat.lt_irrefl 0)
  case cons.cons.cons.cons.cons => simp only [List.length_cons] at h; omega
  all_goals rfl

/-! ## Writing and the rows of bits -/

/-- The inner loop writes the letters of the full rows of bits that wait, and keeps the rest. -/
theorem drain_spec {value : UInt32} {bits : List Bool} (hholds : Holds value bits)
    (hroom : bits.length ≤ 32) (output : CodeUnits) :
    ∃ rest, rest.length = (drain value bits.length output).bits ∧ rest.length < 5 ∧
      Holds (drain value bits.length output).value rest ∧
      ∀ more, (drain value bits.length output).output ++ letters (rest ++ more) =
        output ++ letters (bits ++ more) := by
  generalize hcount : bits.length = count at *
  fun_induction drain value count output generalizing bits with
  | case1 count output ih =>
    -- the first five of the bits are written, and the loop goes on with the others
    obtain ⟨head, tail, rfl, hhead⟩ : ∃ head tail, bits = head ++ tail ∧ head.length = 5 :=
      ⟨bits.take 5, bits.drop 5, (List.take_append_drop 5 bits).symm,
        by rw [List.length_take]; omega⟩
    have htail : tail.length = count := by rw [List.length_append] at hcount; omega
    have hletter : ((value >>> UInt32.ofNat count) &&& 31).toNat = ofBits head := by
      have hextract := hholds.extract (by omega) (by omega)
      rwa [hhead, htail] at hextract
    obtain ⟨rest, hrest, hshort, hheld, houtput⟩ := ih hholds.drop htail (by omega)
    refine ⟨rest, hrest, hshort, hheld, ?_⟩
    intro more
    rw [houtput, List.append_assoc head, letters_append hhead, hletter, List.append_assoc,
      List.singleton_append]
  | case2 count output hshort =>
    have hlt : count < 5 := by
      by_contra hge
      exact hshort (count - 5) (by omega)
    exact ⟨bits, hcount, by omega, hholds, fun more => rfl⟩

/-- The loop over the bytes, and what is written after it, write the letters of the bits that wait
and of the bits of the bytes. -/
theorem encode_loop (bytes : Bytes) {s : Encoder} {bits : List Bool} (hbits : bits.length = s.bits)
    (hlt : s.bits < 5) (hholds : Holds s.value bits) :
    ∃ rest, rest.length = (bytes.foldl encodeByte s).bits ∧ rest.length < 5 ∧
      Holds (bytes.foldl encodeByte s).value rest ∧
      (bytes.foldl encodeByte s).output ++ letters rest =
        s.output ++ letters (bits ++ bitsOf bytes) := by
  induction bytes generalizing s bits with
  | nil =>
    refine ⟨bits, hbits, by omega, hholds, ?_⟩
    rw [bitsOf, List.flatMap_nil, List.append_nil, List.foldl_nil]
  | cons byte bytes ih =>
    have hpush : Holds ((s.value <<< 8) ||| byte.toUInt32) (bits ++ toBits 8 byte.toNat) := by
      have hbyte : byte.toUInt32.toNat < 2 ^ 8 := byte.toNat_lt
      exact @Holds.push _ _ _ 8 hholds hbyte (by omega) (by decide)
    have hcount : (bits ++ toBits 8 byte.toNat).length = s.bits + 8 := by
      rw [List.length_append, length_toBits, hbits]
    obtain ⟨rest, hrest, hshort, hheld, houtput⟩ := drain_spec hpush (by omega) s.output
    rw [hcount] at hrest hheld houtput
    obtain ⟨last, hlast, hlastShort, hlastHeld, hlastOutput⟩ :=
      ih (s := encodeByte s byte) hrest (hrest ▸ hshort) hheld
    refine ⟨last, hlast, hlastShort, hlastHeld, ?_⟩
    have hstep := houtput (bitsOf bytes)
    rw [List.append_assoc, ← bitsOf_cons] at hstep
    rw [List.foldl_cons, hlastOutput]
    exact hstep

/-- A buffer is written as the letters of its bits. -/
theorem encode_eq_letters (buffer : Bytes) : encode buffer = letters (bitsOf buffer) := by
  obtain ⟨rest, hrest, hshort, hheld, houtput⟩ :=
    @encode_loop buffer ⟨0, 0, []⟩ [] rfl (by decide) (holds_nil 0)
  rw [List.nil_append, List.nil_append] at houtput
  rw [encode, ← houtput, ← hrest]
  rcases Nat.eq_zero_or_pos rest.length with hnone | hsome
  · obtain rfl := List.length_eq_zero_iff.mp hnone
    rw [if_neg (by decide)]
    exact (List.append_nil _).symm
  · have hwidth : 5 - rest.length < 32 := by omega
    have hfilled := hheld.shift (by omega) hwidth
    have hlength : (rest ++ List.replicate (5 - rest.length) false).length = 5 := by
      rw [List.length_append, List.length_replicate]
      omega
    have hletter := hfilled.mask (by omega)
    rw [hlength] at hletter
    rw [if_pos hsome, letters_of_lt hsome hshort, ← hletter]
    rfl

/-! ## Writing is the base32 of RFC 4648 -/

theorem length_of_mem_quintets {bits row : List Bool} (h : row ∈ quintets bits) :
    row.length = 5 := by
  fun_induction quintets bits with
  | case1 a b c d e bits ih =>
    rcases List.mem_cons.mp h with rfl | htail
    · rfl
    · exact ih htail
  | case2 => exact absurd h List.not_mem_nil
  | case3 bits hshort hsome =>
    obtain rfl := List.mem_singleton.mp h
    have hlt : bits.length < 5 := by
      rcases bits with _ | ⟨a, _ | ⟨b, _ | ⟨c, _ | ⟨d, _ | ⟨e, bits⟩⟩⟩⟩⟩
      case cons.cons.cons.cons.cons => exact absurd rfl (hshort a b c d e bits)
      all_goals simp only [List.length_cons, List.length_nil]; omega
    rw [List.length_append, List.length_replicate]
    omega

/-- `encode` writes the base32 of RFC 4648 without padding. -/
theorem encode_eq_rfc4648 (buffer : Bytes) : encode buffer = rfc4648 buffer := by
  rw [encode_eq_letters, letters, rfc4648]
  refine List.map_congr_left ?_
  intro row hrow
  have hlt : ofBits row < 2 ^ 5 := length_of_mem_quintets hrow ▸ ofBits_lt row
  exact (letter_spec _ hlt).1

/-! ## Reading gives the bytes back -/

/-- One character: five bits more are held, and the first eight are written once there are
enough. -/
theorem decodeChar_letter {s : Decoder} {bits : List Bool} {n : ℕ} (hn : n < 32)
    (hbits : bits.length = s.bits) (hlt : s.bits < 8) (hholds : Holds s.value bits) :
    ∃ s' rest, decodeChar s (letter n) = .ok s' ∧ rest.length = s'.bits ∧ s'.bits < 8 ∧
      Holds s'.value rest ∧
      (s.bits + 5 < 8 ∧ rest = bits ++ toBits 5 n ∧ s'.index = s.index ∧ s'.output = s.output ∨
        8 ≤ s.bits + 5 ∧ ∃ head, head.length = 8 ∧ bits ++ toBits 5 n = head ++ rest ∧
          s'.index = s.index + 1 ∧
          s'.output = s.output.set s.index (UInt8.ofNat (ofBits head))) := by
  have hcode : (UInt32.ofNat n).toNat = n := by
    rw [UInt32.toNat_ofNat', Nat.mod_eq_of_lt (by omega)]
  have hpush : Holds ((s.value <<< 5) ||| UInt32.ofNat n) (bits ++ toBits 5 n) := by
    have hpushed := @Holds.push _ (UInt32.ofNat n) _ 5 hholds (by omega) (by omega) (by decide)
    rwa [hcode] at hpushed
  have hcount : (bits ++ toBits 5 n).length = s.bits + 5 := by
    rw [List.length_append, length_toBits, hbits]
  rw [decodeChar, (letter_spec n hn).2.1]
  by_cases hfull : s.bits + 5 ≥ 8
  · obtain ⟨head, rest, hparts, hhead⟩ : ∃ head rest,
        bits ++ toBits 5 n = head ++ rest ∧ head.length = 8 :=
      ⟨_, _, (List.take_append_drop 8 (bits ++ toBits 5 n)).symm, by rw [List.length_take]; omega⟩
    have hrest : rest.length = s.bits + 5 - 8 := by
      rw [hparts, List.length_append] at hcount
      omega
    rw [hparts] at hpush
    have hbyte := hpush.extract (by omega) (by omega)
    rw [hhead, hrest] at hbyte
    have hwritten : (((s.value <<< 5) ||| UInt32.ofNat n) >>> UInt32.ofNat (s.bits + 5 - 8) &&&
        255).toUInt8 = UInt8.ofNat (ofBits head) := by
      rw [← hbyte]
      rfl
    simp only [if_pos hfull, hwritten]
    exact ⟨_, rest, rfl, hrest, by simp only; omega, hpush.drop, .inr ⟨hfull, head, hhead, hparts,
      rfl, rfl⟩⟩
  · simp only [if_neg hfull]
    exact ⟨_, bits ++ toBits 5 n, rfl, hcount, by simp only; omega, hpush,
      .inl ⟨by omega, rfl, rfl, rfl⟩⟩

/-- The loop over letters fills the output with the bytes of the bits that they stand for. -/
theorem decode_loop (digits : List ℕ) (hdigits : ∀ n ∈ digits, n < 32) {s : Decoder}
    {bits : List Bool} (hbits : bits.length = s.bits) (hlt : s.bits < 8)
    (hholds : Holds s.value bits) {written : Bytes} (hindex : s.index = written.length)
    (houtput : s.output =
      written ++ List.replicate ((s.bits + digits.length * 5) / 8) (0 : UInt8)) :
    ((digits.map letter).foldlM decodeChar s).map Decoder.output =
      .ok (written ++ octets (bits ++ digits.flatMap (toBits 5))) := by
  induction digits generalizing s bits written with
  | nil =>
    have hnone : (s.bits + 0 * 5) / 8 = 0 := by omega
    rw [List.length_nil, hnone, List.replicate_zero, List.append_nil] at houtput
    rw [List.flatMap_nil, List.append_nil, octets_of_lt (by omega), List.append_nil, ← houtput]
    rfl
  | cons n digits ih =>
    have hn : n < 32 := hdigits n List.mem_cons_self
    have hrestDigits : ∀ m ∈ digits, m < 32 := fun m hm => hdigits m (List.mem_cons_of_mem n hm)
    obtain ⟨s', rest, hstep, hrest, hlt', hholds', hcase⟩ :=
      decodeChar_letter hn hbits hlt hholds
    have hhead : ((n :: digits).map letter).foldlM decodeChar s =
        (digits.map letter).foldlM decodeChar s' := by
      rw [List.map_cons, List.foldlM_cons, hstep]
      rfl
    rw [hhead, List.flatMap_cons, ← List.append_assoc]
    rw [List.length_cons] at houtput
    rcases hcase with ⟨hfew, rfl, hindex', houtput'⟩ | ⟨hfull, head, hheadLength, hparts, hindex',
      houtput'⟩
    · have hcount : s'.bits = s.bits + 5 := by
        rw [← hrest, List.length_append, length_toBits, hbits]
      refine ih hrestDigits hrest hlt' hholds' (hindex'.trans hindex) ?_
      rw [houtput', houtput, hcount]
      congr 3
      omega
    · have hcount : s'.bits + 8 = s.bits + 5 := by
        have hlengths := congrArg List.length hparts
        rw [List.length_append, List.length_append, length_toBits] at hlengths
        omega
      have hspace : (s.bits + (digits.length + 1) * 5) / 8 =
          (s'.bits + digits.length * 5) / 8 + 1 := by omega
      have hset : s'.output = (written ++ [UInt8.ofNat (ofBits head)]) ++
          List.replicate ((s'.bits + digits.length * 5) / 8) (0 : UInt8) := by
        rw [houtput', houtput, hspace, List.replicate_succ, hindex,
          List.set_append_right _ _ le_rfl, Nat.sub_self, List.set_cons_zero, List.append_assoc,
          List.singleton_append]
      have hindexNext : s'.index = (written ++ [UInt8.ofNat (ofBits head)]).length := by
        rw [hindex', hindex, List.length_append, List.length_singleton]
      rw [ih hrestDigits hrest hlt' hholds' hindexNext hset, hparts, List.append_assoc head,
        octets_append hheadLength, List.append_assoc written, List.singleton_append]

/-- The rows of five bits together are the bits, with fewer than five zeros after them. -/
theorem flatten_quintets (bits : List Bool) :
    ∃ zeros : List Bool, zeros.length < 5 ∧ (quintets bits).flatten = bits ++ zeros := by
  fun_induction quintets bits with
  | case1 a b c d e bits ih =>
    obtain ⟨zeros, hzeros, hflatten⟩ := ih
    refine ⟨zeros, hzeros, ?_⟩
    rw [List.flatten_cons, hflatten]
    rfl
  | case2 => exact ⟨[], by decide, rfl⟩
  | case3 bits hshort hsome =>
    have hpos : bits.length ≠ 0 := fun hzero => hsome (List.length_eq_zero_iff.mp hzero)
    refine ⟨List.replicate (5 - bits.length) false, ?_, ?_⟩
    · rw [List.length_replicate]
      omega
    · rw [List.flatten_cons, List.flatten_nil, List.append_nil]

/-- The bits of the rows of five bits, from the values of the rows. -/
theorem flatMap_toBits_quintets (bits : List Bool) :
    ((quintets bits).map ofBits).flatMap (toBits 5) = (quintets bits).flatten := by
  rw [List.flatMap_map, List.flatMap_def]
  congr 1
  conv_rhs => rw [← List.map_id (quintets bits)]
  refine List.map_congr_left ?_
  intro row hrow
  have hrestore := toBits_ofBits row
  rwa [length_of_mem_quintets hrow] at hrestore

/-- The letters of a row of bits, put through the loop of `decode`, are the bytes of the row. -/
theorem decode_letters (buffer : Bytes) :
    ((encode buffer).foldlM decodeChar
        ⟨0, 0, 0, List.replicate ((encode buffer).length * 5 / 8) (0 : UInt8)⟩).map Decoder.output =
      .ok buffer := by
  have hletters : encode buffer = ((quintets (bitsOf buffer)).map ofBits).map letter := by
    rw [encode_eq_letters, letters, List.map_map]
    rfl
  have hdigits : ∀ n ∈ (quintets (bitsOf buffer)).map ofBits, n < 32 := by
    intro n hn
    obtain ⟨row, hrow, rfl⟩ := List.mem_map.mp hn
    have hlt := ofBits_lt row
    rwa [length_of_mem_quintets hrow] at hlt
  obtain ⟨zeros, hzeros, hflatten⟩ := flatten_quintets (bitsOf buffer)
  have hloop := @decode_loop _ hdigits
    ⟨0, 0, 0, List.replicate ((encode buffer).length * 5 / 8) (0 : UInt8)⟩ [] rfl
    (show (0 : ℕ) < 8 by decide) (holds_nil 0) [] rfl (by
      rw [hletters, List.length_map, Nat.zero_add, List.nil_append])
  rw [← hletters] at hloop
  rw [hloop, flatMap_toBits_quintets, hflatten, List.nil_append, List.nil_append,
    octets_bitsOf_append buffer (by omega)]

/-- What `encode` writes has no small letters and no `=`. -/
theorem mem_encode {buffer : Bytes} {unit : UInt16} (h : unit ∈ encode buffer) :
    unit ≠ 61 ∧ unit.toNat < 0x80 ∧ upperUnit unit = unit := by
  rw [encode_eq_letters, letters] at h
  obtain ⟨row, hrow, rfl⟩ := List.mem_map.mp h
  have hlt : ofBits row < 2 ^ 5 := length_of_mem_quintets hrow ▸ ofBits_lt row
  exact (letter_spec _ hlt).2.2

/-- Signs at the end are taken away, up to the first other code unit. -/
theorem rdropWhile_append_replicate {units : CodeUnits} (h : ∀ unit ∈ units, unit ≠ 61)
    (padding : ℕ) :
    (units ++ List.replicate padding (61 : UInt16)).rdropWhile (fun unit => unit == 61) =
      units := by
  induction padding with
  | zero =>
    rw [List.replicate_zero, List.append_nil, List.rdropWhile_eq_self_iff]
    intro hne
    have hlast := h _ (List.getLast_mem hne)
    rwa [beq_iff_eq]
  | succ padding ih =>
    rw [List.replicate_succ', ← List.append_assoc, List.rdropWhile_concat_pos _ _ _ (by decide), ih]

/-- Whatever the case of the letters and the number of `=` after them, what is read is the text that
`encode` wrote. -/
theorem cleaned_of_sameLetters (casing : UpperCasing) {buffer : Bytes} {text : CodeUnits}
    (h : SameLetters text (encode buffer)) (padding : ℕ) :
    cleaned casing (text ++ List.replicate padding 61) = encode buffer := by
  have hupper : text.map upperUnit = encode buffer := by
    rw [h]
    conv_rhs => rw [← List.map_id (encode buffer)]
    exact List.map_congr_left fun unit hunit => (mem_encode hunit).2.2
  have hascii : IsAscii (text ++ List.replicate padding (61 : UInt16)) := by
    intro unit hunit
    rcases List.mem_append.mp hunit with htext | hpad
    · have hmem : upperUnit unit ∈ encode buffer := hupper ▸ List.mem_map_of_mem htext
      have hsmall := (mem_encode hmem).2.1
      rw [upperUnit] at hsmall
      split at hsmall
      · omega
      · exact hsmall
    · rw [List.eq_of_mem_replicate hpad]
      decide
  have hpadding : (List.replicate padding (61 : UInt16)).map upperUnit =
      List.replicate padding 61 := by
    rw [List.map_replicate]
    rfl
  rw [cleaned, casing.ascii _ hascii, List.map_append, hupper, hpadding]
  exact rdropWhile_append_replicate (fun unit hunit => (mem_encode hunit).1) padding

/-- What was written is read back, also with another case of any letters and any padding. -/
theorem decode_of_sameLetters (casing : UpperCasing) {buffer : Bytes} {text : CodeUnits}
    (h : SameLetters text (encode buffer)) (padding : ℕ) :
    decode casing (text ++ List.replicate padding 61) = .ok buffer := by
  rw [decode, cleaned_of_sameLetters casing h padding]
  exact decode_letters buffer

/-- What was written is read back. -/
theorem decode_written (casing : UpperCasing) (buffer : Bytes) :
    decode casing (encode buffer) = .ok buffer := by
  have hself := decode_of_sameLetters casing (rfl : SameLetters (encode buffer) (encode buffer)) 0
  rwa [List.replicate_zero, List.append_nil] at hself

/-- The round trip: `decode` takes what `encode` wrote back to the buffer, also with another case of
any letters and any number of `=` after them, and `encode` writes the base32 of RFC 4648 without
padding. -/
theorem decode_encode (casing : UpperCasing) (buffer : Bytes) :
    decode casing (encode buffer) = .ok buffer ∧
      (∀ text padding, SameLetters text (encode buffer) →
        decode casing (text ++ List.replicate padding 61) = .ok buffer) ∧
      encode buffer = rfc4648 buffer :=
  ⟨decode_written casing buffer, fun _ padding h => decode_of_sameLetters casing h padding,
    encode_eq_rfc4648 buffer⟩

/-- Six bytes, read back from small letters with padding after them. -/
theorem decode_encode_sample :
    decode asciiUpperCasing (unitsOf "mzxw6ytboi" ++ List.replicate 6 61) = .ok (utf8 "foobar") :=
  (decode_encode asciiUpperCasing (utf8 "foobar")).2.1 (unitsOf "mzxw6ytboi") 6
    (by decide +kernel)

end Base32

end Verixa.Mfa
