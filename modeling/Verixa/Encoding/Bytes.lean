import Mathlib
import Verixa.Encoding.Text

/-!
# Bytes

What the readers of binary data share: the bytes of a `Uint8Array`, slices of them, numbers written
big end first, and hexadecimal digits.
-/

namespace Encoding

/-- The bytes of a `Uint8Array`. -/
abbrev Bytes := List UInt8

/-- `new TextEncoder().encode(text)`. -/
def utf8 (text : String) : Bytes := text.toUTF8.toList

/-- `bytes.subarray(start, end)`, for `start` and `end` in order. -/
def subarray (bytes : Bytes) (start stop : ℕ) : Bytes := (bytes.take stop).drop start

/-- The number that bytes denote, the most significant first. -/
def bigEndian (bytes : Bytes) : ℕ := bytes.foldl (fun value byte => value * 256 + byte.toNat) 0

/-- The low `width` bytes of a number, the most significant first. -/
def toBigEndian : ℕ → ℕ → Bytes
  | 0, _ => []
  | width + 1, n => UInt8.ofNat (n / 256 ^ width) :: toBigEndian width n

/-- The two hexadecimal digits of a byte. -/
def hexOfByte (byte : UInt8) : List Char :=
  [Nat.digitChar (byte.toNat / 16), Nat.digitChar (byte.toNat % 16)]

/-- `buffer.toString("hex")`. -/
def bufferToHex (buffer : Bytes) : String := String.ofList (buffer.flatMap hexOfByte)

/-- `text.slice(start, stop)`, for texts of one code unit a character. -/
def slice (text : String) (start stop : ℕ) : String :=
  String.ofList ((text.toList.take stop).drop start)

/-- `text.startsWith(start)`. -/
def startsWith (text start : String) : Bool := start.toList.isPrefixOf text.toList

theorem length_subarray (bytes : Bytes) (start stop : ℕ) :
    (subarray bytes start stop).length = min stop bytes.length - start := by
  rw [subarray, List.length_drop, List.length_take]

/-! ## Big end first -/

@[simp] theorem length_toBigEndian (width n : ℕ) : (toBigEndian width n).length = width := by
  induction width with
  | zero => rfl
  | succ width ih => rw [toBigEndian, List.length_cons, ih]

theorem foldl_bytes (bytes : Bytes) (start : ℕ) :
    bytes.foldl (fun value byte => value * 256 + byte.toNat) start =
      start * 256 ^ bytes.length + bigEndian bytes := by
  induction bytes generalizing start with
  | nil => rw [List.foldl_nil, List.length_nil, pow_zero, mul_one, bigEndian, List.foldl_nil]; rfl
  | cons byte bytes ih =>
    have hcons : bigEndian (byte :: bytes) =
        (0 * 256 + byte.toNat) * 256 ^ bytes.length + bigEndian bytes := ih (0 * 256 + byte.toNat)
    rw [List.foldl_cons, ih, hcons, List.length_cons, pow_succ]
    ring

theorem bigEndian_cons (byte : UInt8) (bytes : Bytes) :
    bigEndian (byte :: bytes) = byte.toNat * 256 ^ bytes.length + bigEndian bytes := by
  rw [bigEndian, List.foldl_cons, foldl_bytes, Nat.zero_mul, Nat.zero_add]

theorem bigEndian_lt (bytes : Bytes) : bigEndian bytes < 256 ^ bytes.length := by
  induction bytes with
  | nil => exact Nat.one_pos
  | cons byte bytes ih =>
    have hbyte : byte.toNat ≤ 255 := Nat.le_of_lt_succ byte.toNat_lt
    have hhigh : byte.toNat * 256 ^ bytes.length ≤ 255 * 256 ^ bytes.length :=
      Nat.mul_le_mul_right _ hbyte
    rw [bigEndian_cons, List.length_cons, pow_succ]
    omega

/-- The low bytes of a number denote its remainder. -/
theorem bigEndian_toBigEndian (width n : ℕ) :
    bigEndian (toBigEndian width n) = n % 256 ^ width := by
  induction width with
  | zero => rw [toBigEndian, pow_zero, Nat.mod_one]; rfl
  | succ width ih =>
    rw [toBigEndian, bigEndian_cons, ih, length_toBigEndian, Nat.mod_pow_succ,
      UInt8.toNat_ofNat', Nat.add_comm, Nat.mul_comm]

/-- The bytes of the number that bytes denote are the bytes. -/
theorem toBigEndian_bigEndian (bytes : Bytes) :
    toBigEndian bytes.length (bigEndian bytes) = bytes := by
  suffices h : ∀ high, toBigEndian bytes.length (high * 256 ^ bytes.length + bigEndian bytes) =
      bytes by
    have hzero := h 0
    rwa [Nat.zero_mul, Nat.zero_add] at hzero
  induction bytes with
  | nil => exact fun high => rfl
  | cons byte bytes ih =>
    intro high
    have hsplit : high * 256 ^ (bytes.length + 1) + bigEndian (byte :: bytes) =
        (high * 256 + byte.toNat) * 256 ^ bytes.length + bigEndian bytes := by
      rw [bigEndian_cons, pow_succ]
      ring
    have hquotient : ((high * 256 + byte.toNat) * 256 ^ bytes.length + bigEndian bytes) /
        256 ^ bytes.length = high * 256 + byte.toNat := by
      rw [Nat.mul_comm, Nat.mul_add_div (Nat.pow_pos (by decide)),
        Nat.div_eq_of_lt (bigEndian_lt bytes), add_zero]
    have hbyte : UInt8.ofNat (high * 256 + byte.toNat) = byte := by
      apply UInt8.toNat_inj.mp
      rw [UInt8.toNat_ofNat', Nat.mul_add_mod_of_lt byte.toNat_lt]
    rw [List.length_cons, hsplit, toBigEndian, hquotient, hbyte, ih]

/-- Numbers with the same low bytes have them written alike. -/
theorem toBigEndian_mod (width n : ℕ) :
    toBigEndian width (n % 256 ^ width) = toBigEndian width n := by
  have hsame := toBigEndian_bigEndian (toBigEndian width n)
  rwa [length_toBigEndian, bigEndian_toBigEndian] at hsame

/-- The high bytes come first. -/
theorem toBigEndian_add (high low n : ℕ) :
    toBigEndian (high + low) n = toBigEndian high (n / 256 ^ low) ++ toBigEndian low n := by
  induction high with
  | zero => rw [Nat.zero_add]; rfl
  | succ high ih =>
    rw [Nat.succ_add, toBigEndian, toBigEndian, ih, Nat.div_div_eq_div_mul, ← pow_add,
      Nat.add_comm low, List.cons_append]

end Encoding
