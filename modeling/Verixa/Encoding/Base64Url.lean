import Verixa.Encoding.CodeUnits

/-!
# Base64url

Bytes written with the URL-safe alphabet of base64, without padding, and the lenient reading of a
`Buffer`: both alphabets are read, a `=` ends the text, and other code units are passed over.
Reading takes what was written back to the bytes (`decode_of_encode`).
-/

namespace Encoding

namespace Base64Url

/-- The code unit that stands for six bits. -/
def digit (n : ℕ) : UInt16 :=
  UInt16.ofNat <|
    if n < 26 then 65 + n else if n < 52 then 97 + (n - 26) else if n < 62 then 48 + (n - 52)
    else if n = 62 then 45 else 95

/-- `buffer.toString("base64url")`. -/
def encode : Bytes → CodeUnits
  | [] => []
  | [a] => [digit (a.toNat / 4), digit (a.toNat % 4 * 16)]
  | [a, b] =>
    [digit (a.toNat / 4), digit (a.toNat % 4 * 16 + b.toNat / 16), digit (b.toNat % 16 * 4)]
  | a :: b :: c :: bytes =>
    digit (a.toNat / 4) :: digit (a.toNat % 4 * 16 + b.toNat / 16) ::
      digit (b.toNat % 16 * 4 + c.toNat / 64) :: digit (c.toNat % 64) :: encode bytes

/-- The six bits that a code unit stands for, in either alphabet. -/
def value? (unit : UInt16) : Option ℕ :=
  let n := unit.toNat
  if 65 ≤ n ∧ n ≤ 90 then some (n - 65)
  else if 97 ≤ n ∧ n ≤ 122 then some (n - 97 + 26)
  else if 48 ≤ n ∧ n ≤ 57 then some (n - 48 + 52)
  else if n = 43 ∨ n = 45 then some 62
  else if n = 47 ∨ n = 95 then some 63
  else none

/-- The bytes of a row of digits; bits that fill no byte are dropped. -/
def ofDigits : List ℕ → Bytes
  | a :: b :: c :: d :: digits =>
    UInt8.ofNat (a * 4 + b / 16) :: UInt8.ofNat (b % 16 * 16 + c / 4) ::
      UInt8.ofNat (c % 4 * 64 + d) :: ofDigits digits
  | [a, b, c] => [UInt8.ofNat (a * 4 + b / 16), UInt8.ofNat (b % 16 * 16 + c / 4)]
  | [a, b] => [UInt8.ofNat (a * 4 + b / 16)]
  | _ => []

/-- `Buffer.from(units, "base64url")`. -/
def decode (units : CodeUnits) : Bytes :=
  ofDigits ((units.takeWhile fun unit => unit != 61).filterMap value?)

/-! ## Digits -/

/-- A digit is read as the six bits it stands for, and is neither `=`, nor `.`, nor beyond ASCII. -/
theorem digit_spec : ∀ n < 64,
    value? (digit n) = some n ∧ digit n ≠ 61 ∧ digit n ≠ 46 ∧ (digit n).toNat < 0x80 := by
  decide +kernel

/-- What is written consists of digits. -/
theorem exists_digit_of_mem_encode {bytes : Bytes} {unit : UInt16} (h : unit ∈ encode bytes) :
    ∃ n < 64, unit = digit n := by
  fun_induction encode bytes with
  | case1 => exact absurd h List.not_mem_nil
  | case2 a =>
    have ha := a.toNat_lt
    simp only [List.mem_cons, List.not_mem_nil, or_false] at h
    rcases h with h | h
    · exact ⟨_, by omega, h⟩
    · exact ⟨_, by omega, h⟩
  | case3 a b =>
    have ha := a.toNat_lt
    have hb := b.toNat_lt
    simp only [List.mem_cons, List.not_mem_nil, or_false] at h
    rcases h with h | h | h
    · exact ⟨_, by omega, h⟩
    · exact ⟨_, by omega, h⟩
    · exact ⟨_, by omega, h⟩
  | case4 a b c bytes ih =>
    have ha := a.toNat_lt
    have hb := b.toNat_lt
    have hc := c.toNat_lt
    simp only [List.mem_cons] at h
    rcases h with h | h | h | h | h
    · exact ⟨_, by omega, h⟩
    · exact ⟨_, by omega, h⟩
    · exact ⟨_, by omega, h⟩
    · exact ⟨_, by omega, h⟩
    · exact ih h

/-- There is no dot in it. -/
theorem dot_not_mem_encode (bytes : Bytes) : (46 : UInt16) ∉ encode bytes := by
  intro h
  obtain ⟨n, hn, hdigit⟩ := exists_digit_of_mem_encode h
  exact (digit_spec n hn).2.2.1 hdigit.symm

theorem isAscii_encode (bytes : Bytes) : IsAscii (encode bytes) := by
  intro unit h
  obtain ⟨n, hn, rfl⟩ := exists_digit_of_mem_encode h
  exact (digit_spec n hn).2.2.2

/-! ## The round trip -/

/-- A digit at the head of what is read. -/
theorem digits_cons {n : ℕ} (hn : n < 64) (units : CodeUnits) :
    ((digit n :: units).takeWhile fun unit => unit != 61).filterMap value? =
      n :: (units.takeWhile fun unit => unit != 61).filterMap value? := by
  obtain ⟨hvalue, hpad, _⟩ := digit_spec n hn
  rw [List.takeWhile_cons, if_pos (bne_iff_ne.mpr hpad), List.filterMap_cons_some hvalue]

/-- A byte put together from its bits. -/
theorem ofNat_eq_of_toNat_eq {n : ℕ} {a : UInt8} (h : n = a.toNat) : UInt8.ofNat n = a := by
  rw [h, UInt8.ofNat_toNat]

/-- Reading takes what was written back to the bytes. -/
theorem decode_of_encode (bytes : Bytes) : decode (encode bytes) = bytes := by
  rw [decode]
  fun_induction encode bytes with
  | case1 => rfl
  | case2 a =>
    have ha := a.toNat_lt
    rw [digits_cons (by omega), digits_cons (by omega), List.takeWhile_nil, List.filterMap_nil,
      ofDigits, ofNat_eq_of_toNat_eq (a := a) (by omega)]
  | case3 a b =>
    have ha := a.toNat_lt
    have hb := b.toNat_lt
    rw [digits_cons (by omega), digits_cons (by omega), digits_cons (by omega),
      List.takeWhile_nil, List.filterMap_nil, ofDigits, ofNat_eq_of_toNat_eq (a := a) (by omega),
      ofNat_eq_of_toNat_eq (a := b) (by omega)]
  | case4 a b c bytes ih =>
    have ha := a.toNat_lt
    have hb := b.toNat_lt
    have hc := c.toNat_lt
    rw [digits_cons (by omega), digits_cons (by omega), digits_cons (by omega),
      digits_cons (by omega), ofDigits, ih, ofNat_eq_of_toNat_eq (a := a) (by omega),
      ofNat_eq_of_toNat_eq (a := b) (by omega), ofNat_eq_of_toNat_eq (a := c) (by omega)]

end Base64Url

end Encoding
