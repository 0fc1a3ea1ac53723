import Verixa.Arithmetic.Binary64
import Verixa.Mfa.Base32
import Verixa.SharedKernel.Errors

/-!
# Time-based one-time passwords

The code for a secret and an instant.  The number of the time step is written into eight bytes in
two halves, the low one as a signed integer of 32 bits: a half with its high bit set is negative,
and `writeUInt32BE` throws.

* `timeStep_eq`: two roundings do not change the number of the step.
* `generate_eq_hotp_iff`: the code is the one of RFC 6238 exactly for the steps whose low half has
  its high bit clear.
-/

namespace Verixa.Mfa

open Encoding

/-- HMAC-SHA1: some function with digests of 20 bytes. -/
structure HmacSha1 where
  digest : Bytes → Bytes → Bytes
  length_digest : ∀ key message, (digest key message).length = 20

/-- A secret: a text that `base32.decode` takes. -/
structure TotpSecret (casing : UpperCasing) where
  value : CodeUnits
  decodes : ∃ key, Base32.decode casing value = .ok key

namespace TotpSecret

variable {casing : UpperCasing}

/-- `TotpSecret.generate()`, given the random bytes. -/
def generate (casing : UpperCasing) (buffer : Bytes) : TotpSecret casing where
  value := Base32.encode buffer
  decodes := ⟨buffer, Base32.decode_written casing buffer⟩

/-- The key that the text stands for. -/
def key (secret : TotpSecret casing) : Bytes :=
  match Base32.decode casing secret.value with
  | .ok key => key
  | .error _ => []

theorem decode_value (secret : TotpSecret casing) :
    Base32.decode casing secret.value = .ok secret.key := by
  obtain ⟨key, hkey⟩ := secret.decodes
  rw [TotpSecret.key, hkey]

end TotpSecret

namespace Rfc6238TotpAlgorithm

def PERIOD_SECONDS : ℕ := 30

def DIGITS : ℕ := 6

/-- `Math.floor(timestamp / 1_000 / PERIOD_SECONDS)`. -/
def timeStep (timestamp : ℤ) : ℤ :=
  ⌊Binary64.round (Binary64.round ((timestamp : ℚ) / 1000) / PERIOD_SECONDS)⌋

/-- `Math.floor(timeStep / 0x1_0000_0000)`. -/
def highHalf (timeStep : ℤ) : ℤ := ⌊Binary64.round ((timeStep : ℚ) / 0x100000000)⌋

/-- `timeStep & 0xffff_ffff`. -/
def lowHalf (timeStep : ℤ) : ℤ := (BitVec.ofInt 32 timeStep &&& BitVec.ofInt 32 0xffffffff).toInt

/-- The error of `writeUInt32BE` for a number that does not fit. -/
def outOfRange (value : ℤ) : ThrownError where
  name := "RangeError"
  message := "The value of \"value\" is out of range. " ++
    "It must be >= 0 and <= 4294967295. Received " ++ toString value

/-- `buffer.writeUInt32BE(value, offset)`, where the buffer has four bytes from the offset on. -/
def writeUInt32BE (buffer : Bytes) (value : ℤ) (offset : ℕ) : Except ThrownError Bytes :=
  if value > 4294967295 ∨ value < 0 then .error (outOfRange value)
  else .ok (buffer.take offset ++ toBigEndian 4 value.toNat ++ buffer.drop (offset + 4))

/-- `bytes[index]` as an operand of `&`, to which a missing byte is 0. -/
def byteAt (bytes : Bytes) (index : ℕ) : UInt32 := (bytes.getD index 0).toUInt32

/-- The 31 bits that the last byte of the digest points to. -/
def truncated (hmac : Bytes) : ℤ :=
  let offset := (byteAt hmac (hmac.length - 1) &&& 0xf).toNat
  let code := ((byteAt hmac offset &&& 0x7f) <<< 24) |||
    ((byteAt hmac (offset + 1) &&& 0xff) <<< 16) ||| ((byteAt hmac (offset + 2) &&& 0xff) <<< 8) |||
    (byteAt hmac (offset + 3) &&& 0xff)
  code.toBitVec.toInt

/-- `otp.toString().padStart(DIGITS, "0")`. -/
def padStart (otp : ℤ) : String := String.ofList ((toString otp).toList.leftpad DIGITS '0')

section Generate

variable {casing : UpperCasing} (hmacSha1 : HmacSha1) (secret : TotpSecret casing)

/-- `Rfc6238TotpAlgorithm.generate(secret, timestamp)`. -/
def generate (timestamp : ℤ) : Except ThrownError String := do
  let timeStep := timeStep timestamp
  let buffer ← writeUInt32BE (List.replicate 8 0) (highHalf timeStep) 0
  let buffer ← writeUInt32BE buffer (lowHalf timeStep) 4
  let secretBytes ← (Base32.decode casing secret.value).mapError fun message =>
    { message := toWellFormed message }
  let hmac := hmacSha1.digest secretBytes buffer
  let otp := (truncated hmac).tmod (10 ^ DIGITS)
  return padStart otp

/-! ## The code of the standards -/

/-- The dynamic truncation of RFC 4226: the last 31 bits of the four bytes from the offset that the
low four bits of the last byte give. -/
def dynamicTruncation (digest : Bytes) : ℕ :=
  let offset := (digest.getLastD 0).toNat % 16
  bigEndian (subarray digest offset (offset + 4)) % 2 ^ 31

/-- The six-digit HOTP value of RFC 4226 for a counter of 64 bits. -/
def hotp (key : Bytes) (counter : ℕ) : String :=
  padded 6 (dynamicTruncation (hmacSha1.digest key (toBigEndian 8 counter)) % 10 ^ 6)

end Generate

/-! ## The number of the time step -/

/-- The quotient by 1000, rounded, stays clear of the next step by a part of it that 43 bits before
the point leave room for. -/
theorem round_seconds {t k : ℕ} (hlow : 30000 * k ≤ t) (hhigh : t < 30000 * (k + 1))
    (hk : k ≤ 288000000000) :
    (30 * k : ℕ) ≤ Binary64.round ((t : ℚ) / 1000) ∧
      Binary64.round ((t : ℚ) / 1000) ≤ 30 * (k + 1) - 1 / 1024 := by
  have hlow' : (30000 * k : ℚ) ≤ t := by exact_mod_cast hlow
  have hhigh' : (t : ℚ) + 1 ≤ 30000 * (k + 1) := by exact_mod_cast hhigh
  constructor
  · refine Binary64.le_round (Nat.cast_nonneg _) (Binary64.representable_natCast (by omega)) ?_
    push_cast
    linarith
  · have hrepresentable : Binary64.Representable (30 * (k + 1) - 1 / 1024 : ℚ) := by
      refine ⟨30 * (k + 1) * 1024 - 1, -10, by omega, by decide, ?_⟩
      have hone : 1 ≤ 30 * (k + 1) * 1024 := by omega
      rw [Nat.cast_sub hone]
      push_cast
      norm_num
      ring
    exact Binary64.round_le (by positivity) hrepresentable (by linarith)

/-- Up to the last instant of a date, two roundings do not change the number of the step. -/
theorem timeStep_eq {timestamp : ℤ} (h : 0 ≤ timestamp) (hmax : timestamp ≤ maxTime) :
    timeStep timestamp = timestamp / 30000 := by
  obtain ⟨t, rfl⟩ := Int.eq_ofNat_of_zero_le h
  obtain ⟨k, hk⟩ : ∃ k : ℕ, k = t / 30000 := ⟨_, rfl⟩
  have hsize : k ≤ 288000000000 := by
    have hmax' : (t : ℤ) ≤ 8640000000000000 := hmax
    omega
  obtain ⟨hlow, hhigh⟩ := round_seconds (t := t) (k := k) (by omega) (by omega) hsize
  have hsize' : (k : ℚ) ≤ 288000000000 := by exact_mod_cast hsize
  have hk0 : (0 : ℚ) ≤ k := Nat.cast_nonneg k
  push_cast at hlow
  have hfloor : timeStep (t : ℤ) = (k : ℤ) := by
    rw [timeStep, Int.floor_eq_iff]
    simp only [Int.cast_natCast, PERIOD_SECONDS, Nat.cast_ofNat]
    generalize Binary64.round ((t : ℚ) / 1000) = seconds at hlow hhigh ⊢
    constructor
    · exact Binary64.le_round hk0 (Binary64.representable_natCast (by omega)) (by linarith)
    · rcases (show (0 : ℚ) ≤ seconds / 30 by linarith).eq_or_lt with hzero | hpos
      · rw [← hzero, Binary64.round_zero]
        linarith
      · -- half a unit in the last place is less than what the quotient is clear of the next step by
        have hexponent := Binary64.exponent_le (k := 39) hpos (by norm_num; linarith) (by decide)
        have hunit : (2 : ℚ) ^ Binary64.exponent (seconds / 30) ≤ 2 ^ (-14 : ℤ) :=
          zpow_le_zpow_right₀ (by norm_num) (by omega)
        have hround := Binary64.round_le_add_half (seconds / 30)
        have hvalue : (2 : ℚ) ^ (-14 : ℤ) = 1 / 16384 := by norm_num
        rw [hvalue] at hunit
        linarith
  rw [hfloor, hk]
  omega

/-- The high half of a step is exact. -/
theorem highHalf_eq {k : ℕ} (hk : k < 2 ^ 53) : highHalf k = (k / 2 ^ 32 : ℕ) := by
  have hrepresentable : Binary64.Representable ((k : ℚ) / 0x100000000) :=
    ⟨k, -32, hk, by decide, by rw [zpow_neg, div_eq_mul_inv]; norm_num⟩
  rw [highHalf, Int.cast_natCast, hrepresentable.round_eq (by positivity)]
  have hfloor := Rat.floor_natCast_div_natCast k 0x100000000
  push_cast at hfloor ⊢
  exact hfloor

/-- The low half of a step is negative exactly if its high bit is set. -/
theorem lowHalf_eq (k : ℕ) :
    lowHalf k =
      if k.testBit 31 then ((k % 2 ^ 32 : ℕ) : ℤ) - 2 ^ 32 else ((k % 2 ^ 32 : ℕ) : ℤ) := by
  have hmask : BitVec.ofInt 32 0xffffffff = BitVec.allOnes 32 := by decide
  have hmsb : (BitVec.ofNat 32 k).msb = k.testBit 31 := by
    rw [BitVec.msb_eq_getLsbD_last, BitVec.getLsbD_ofNat]
    rfl
  rw [lowHalf, hmask, BitVec.and_allOnes, BitVec.ofInt_natCast, BitVec.toInt_eq_msb_cond, hmsb,
    BitVec.toNat_ofNat]
  rfl

/-! ## Dynamic truncation -/

/-- A shift that moves no bit out of the word. -/
theorem toNat_shiftLeft {x : UInt32} {n : ℕ} (hn : n < 32) (hx : x.toNat * 2 ^ n < 2 ^ 32) :
    (x <<< UInt32.ofNat n).toNat = x.toNat * 2 ^ n := by
  rw [UInt32.toNat_shiftLeft, UInt32.toNat_ofNat', Nat.mod_eq_of_lt (a := n) (by omega),
    Nat.mod_eq_of_lt hn, Nat.shiftLeft_eq, Nat.mod_eq_of_lt hx]

/-- Below the bits of a number a smaller one is put in as a sum. -/
theorem or_eq_add (high : ℕ) {low width : ℕ} (h : low < 2 ^ width) :
    high * 2 ^ width ||| low = high * 2 ^ width + low := by
  rw [← Nat.shiftLeft_eq, Nat.shiftLeft_add_eq_or_of_lt h]

/-- Bytes shifted to their places are put together to the number that they denote. -/
theorem toNat_or_shifts {a b c d : UInt32} (ha : a.toNat < 2 ^ 7) (hb : b.toNat < 2 ^ 8)
    (hc : c.toNat < 2 ^ 8) (hd : d.toNat < 2 ^ 8) :
    ((a <<< 24) ||| (b <<< 16) ||| (c <<< 8) ||| d).toNat =
      ((a.toNat * 256 + b.toNat) * 256 + c.toNat) * 256 + d.toNat := by
  have hfirst : (a <<< 24).toNat = a.toNat * 2 ^ 24 :=
    toNat_shiftLeft (n := 24) (by decide) (by omega)
  have hsecond : (b <<< 16).toNat = b.toNat * 2 ^ 16 :=
    toNat_shiftLeft (n := 16) (by decide) (by omega)
  have hthird : (c <<< 8).toNat = c.toNat * 2 ^ 8 :=
    toNat_shiftLeft (n := 8) (by decide) (by omega)
  rw [UInt32.toNat_or, UInt32.toNat_or, UInt32.toNat_or, hfirst, hsecond, hthird,
    or_eq_add _ (show b.toNat * 2 ^ 16 < 2 ^ 24 by omega)]
  have hab : a.toNat * 2 ^ 24 + b.toNat * 2 ^ 16 = (a.toNat * 256 + b.toNat) * 2 ^ 16 := by ring
  rw [hab, or_eq_add _ (show c.toNat * 2 ^ 8 < 2 ^ 16 by omega)]
  have habc : (a.toNat * 256 + b.toNat) * 2 ^ 16 + c.toNat * 2 ^ 8 =
      ((a.toNat * 256 + b.toNat) * 256 + c.toNat) * 2 ^ 8 := by ring
  rw [habc, or_eq_add _ hd]
  rfl

/-- A byte under a mask of low bits. -/
theorem toNat_byteAt_and (bytes : Bytes) (index : ℕ) (mask : UInt32) (width : ℕ)
    (hmask : mask.toNat = 2 ^ width - 1) :
    (byteAt bytes index &&& mask).toNat = (bytes.getD index 0).toNat % 2 ^ width := by
  rw [UInt32.toNat_and, hmask, Nat.and_two_pow_sub_one_eq_mod]
  rfl

/-- Four bytes of a digest. -/
theorem subarray_four {bytes : Bytes} {offset : ℕ} (h : offset + 4 ≤ bytes.length) :
    subarray bytes offset (offset + 4) =
      [bytes.getD offset 0, bytes.getD (offset + 1) 0, bytes.getD (offset + 2) 0,
        bytes.getD (offset + 3) 0] := by
  refine List.ext_getElem ?_ ?_
  · rw [length_subarray]
    simp only [List.length_cons, List.length_nil]
    omega
  · intro i hi _
    rw [length_subarray] at hi
    have hvalue : (subarray bytes offset (offset + 4))[i] = bytes.getD (offset + i) 0 := by
      rw [List.getD_eq_getElem _ _ (by omega)]
      simp only [subarray, List.getElem_drop, List.getElem_take]
    rw [hvalue]
    have hcases : i = 0 ∨ i = 1 ∨ i = 2 ∨ i = 3 := by omega
    rcases hcases with rfl | rfl | rfl | rfl <;> rfl

/-- The shifts and masks put the 31 bits of the truncation together, wherever they stand. -/
theorem truncated_eq {digest : Bytes} (h : digest.length = 20) :
    truncated digest = dynamicTruncation digest := by
  have hlast : (byteAt digest (digest.length - 1) &&& 0xf).toNat =
      (digest.getLastD 0).toNat % 16 := by
    rw [toNat_byteAt_and digest _ 0xf 4 rfl, List.getLastD_eq_getLast?,
      List.getLast?_eq_getElem?, List.getD_eq_getElem?_getD]
    rfl
  obtain ⟨offset, hoffset⟩ : ∃ offset, offset = (digest.getLastD 0).toNat % 16 := ⟨_, rfl⟩
  have hbound : offset + 4 ≤ digest.length := by omega
  rw [truncated, dynamicTruncation, hlast, ← hoffset, subarray_four hbound]
  have ha := toNat_byteAt_and digest offset 0x7f 7 rfl
  have hb := toNat_byteAt_and digest (offset + 1) 0xff 8 rfl
  have hc := toNat_byteAt_and digest (offset + 2) 0xff 8 rfl
  have hd := toNat_byteAt_and digest (offset + 3) 0xff 8 rfl
  have hbig : bigEndian [digest.getD offset 0, digest.getD (offset + 1) 0,
      digest.getD (offset + 2) 0, digest.getD (offset + 3) 0] =
      (((digest.getD offset 0).toNat * 256 + (digest.getD (offset + 1) 0).toNat) * 256 +
        (digest.getD (offset + 2) 0).toNat) * 256 + (digest.getD (offset + 3) 0).toNat := by
    simp [bigEndian]
  generalize digest.getD offset 0 = a at ha hbig ⊢
  generalize digest.getD (offset + 1) 0 = b at hb hbig ⊢
  generalize digest.getD (offset + 2) 0 = c at hc hbig ⊢
  generalize digest.getD (offset + 3) 0 = d at hd hbig ⊢
  have hb' := b.toNat_lt
  have hc' := c.toNat_lt
  have hd' := d.toNat_lt
  -- no part reaches the bits of another, and the highest bit stays clear
  have hcode := toNat_or_shifts (a := byteAt digest offset &&& 0x7f)
    (b := byteAt digest (offset + 1) &&& 0xff) (c := byteAt digest (offset + 2) &&& 0xff)
    (d := byteAt digest (offset + 3) &&& 0xff) (by omega) (by omega) (by omega) (by omega)
  rw [ha, hb, hc, hd, Nat.mod_eq_of_lt hb', Nat.mod_eq_of_lt hc', Nat.mod_eq_of_lt hd'] at hcode
  have hlt : 2 * (((a.toNat % 2 ^ 7 * 256 + b.toNat) * 256 + c.toNat) * 256 + d.toNat) <
      2 ^ 32 := by
    omega
  rw [BitVec.toInt_eq_toNat_of_lt (by rw [UInt32.toNat_toBitVec, hcode]; exact hlt),
    UInt32.toNat_toBitVec, hcode, hbig]
  have hvalue : ((a.toNat % 2 ^ 7 * 256 + b.toNat) * 256 + c.toNat) * 256 + d.toNat =
      (((a.toNat * 256 + b.toNat) * 256 + c.toNat) * 256 + d.toNat) % 2 ^ 31 := by omega
  rw [hvalue]

/-! ## Codes -/

/-- A natural number is filled up with zeros as its numeral. -/
theorem padStart_natCast (n : ℕ) : padStart n = padded 6 n := rfl

/-- The two halves, where both fit, are the eight bytes of the step. -/
theorem writeHalves {k : ℕ} (hk : k < 2 ^ 53) :
    ((writeUInt32BE (List.replicate 8 0) (highHalf k) 0) >>= fun buffer =>
      writeUInt32BE buffer (lowHalf k) 4) =
      if k.testBit 31 then .error (outOfRange (lowHalf k)) else .ok (toBigEndian 8 k) := by
  have hhigh : highHalf k = (k / 2 ^ 32 : ℕ) := highHalf_eq hk
  have hfits : ¬(highHalf k > 4294967295 ∨ highHalf k < 0) := by
    rw [hhigh]
    omega
  rw [writeUInt32BE, if_neg hfits, hhigh, Int.toNat_natCast]
  change writeUInt32BE _ _ _ = _
  rw [writeUInt32BE, lowHalf_eq]
  split
  · rw [if_pos (.inr (by omega))]
  · rename_i hbit
    have hlow : ¬(((k % 2 ^ 32 : ℕ) : ℤ) > 4294967295 ∨ ((k % 2 ^ 32 : ℕ) : ℤ) < 0) := by omega
    have hsplit : toBigEndian 8 k = toBigEndian 4 (k / 2 ^ 32) ++ toBigEndian 4 k :=
      toBigEndian_add 4 4 k
    have hmod : toBigEndian 4 (k % 2 ^ 32) = toBigEndian 4 k := toBigEndian_mod 4 k
    have hstart : (toBigEndian 4 (k / 2 ^ 32) ++ List.replicate 4 0).take 4 =
        toBigEndian 4 (k / 2 ^ 32) := List.take_left' (length_toBigEndian 4 _)
    have hend : (toBigEndian 4 (k / 2 ^ 32) ++ List.replicate 4 (0 : UInt8)).drop 8 = [] :=
      List.drop_of_length_le (by rw [List.length_append, length_toBigEndian]; rfl)
    rw [if_neg hlow, Int.toNat_natCast, hsplit, hmod]
    change Except.ok ((toBigEndian 4 (k / 2 ^ 32) ++ List.replicate 4 0).take 4 ++
      toBigEndian 4 k ++ (toBigEndian 4 (k / 2 ^ 32) ++ List.replicate 4 0).drop 8) = _
    rw [hstart, hend, List.append_nil]

section Exactness

variable {casing : UpperCasing} (hmacSha1 : HmacSha1) (secret : TotpSecret casing)

/-- What `generate` does up to the last instant of a date. -/
theorem generate_eq {timestamp : ℤ} (h : 0 ≤ timestamp) (hmax : timestamp ≤ maxTime) :
    generate hmacSha1 secret timestamp =
      if (timestamp / 30000).toNat.testBit 31 then
        .error (outOfRange (lowHalf (timestamp / 30000)))
      else .ok (hotp hmacSha1 secret.key (timestamp / 30000).toNat) := by
  obtain ⟨k, hk⟩ : ∃ k : ℕ, timestamp / 30000 = k :=
    Int.eq_ofNat_of_zero_le (Int.ediv_nonneg h (by decide))
  have hsize : k < 2 ^ 53 := by
    have hmax' : timestamp ≤ 8640000000000000 := hmax
    omega
  have hhalves := writeHalves hsize
  rw [generate, timeStep_eq h hmax, hk, Int.toNat_natCast]
  have hbind : ∀ next : Bytes → Except ThrownError String,
      ((writeUInt32BE (List.replicate 8 0) (highHalf k) 0) >>= fun buffer =>
        (writeUInt32BE buffer (lowHalf k) 4) >>= next) =
      ((writeUInt32BE (List.replicate 8 0) (highHalf k) 0) >>= fun buffer =>
        writeUInt32BE buffer (lowHalf k) 4) >>= next := fun next => (bind_assoc _ _ _).symm
  rw [hbind, hhalves]
  split
  · rfl
  · rw [secret.decode_value]
    have htruncated := truncated_eq
      (hmacSha1.length_digest secret.key (toBigEndian 8 k))
    change Except.ok (padStart ((truncated (hmacSha1.digest secret.key (toBigEndian 8 k))).tmod
      (10 ^ DIGITS))) = _
    rw [htruncated, hotp, ← padStart_natCast]
    rfl

/-- The code is the one of RFC 6238 exactly for the steps whose low half has its high bit clear:
for the others `generate` throws. -/
theorem generate_eq_hotp_iff (date : Date) (h : 0 ≤ date.time) :
    generate hmacSha1 secret date.time =
        .ok (hotp hmacSha1 secret.key (date.time / 30000).toNat) ↔
      (date.time / 30000).toNat.testBit 31 = false := by
  rw [generate_eq hmacSha1 secret h date.inRange.2]
  split
  · rename_i hbit
    rw [hbit]
    exact ⟨fun herror => (nomatch herror), fun hclear => (nomatch hclear)⟩
  · rename_i hbit
    exact ⟨fun _ => eq_false_of_ne_true hbit, fun _ => rfl⟩

end Exactness

/-- A function with digests of the right length. -/
def sampleHmac : HmacSha1 where
  digest key message := ((key ++ message).take 20).leftpad 20 0
  length_digest key message := by
    rw [List.length_leftpad, List.length_take]
    omega

/-- A secret of ten bytes. -/
def sampleSecret : TotpSecret asciiUpperCasing :=
  .generate asciiUpperCasing ((List.range 10).map UInt8.ofNat)

theorem generate_eq_hotp_iff_sample :
    generate sampleHmac sampleSecret 59000 = .ok (hotp sampleHmac sampleSecret.key 1) :=
  (generate_eq_hotp_iff sampleHmac sampleSecret ⟨59000, by decide⟩ (by decide)).mpr (by decide)

/-- From the year 4011 on no code can be made for a time. -/
theorem generate_throws :
    ¬∀ (casing : UpperCasing) (hmacSha1 : HmacSha1) (secret : TotpSecret casing) (date : Date),
      0 ≤ date.time → generate hmacSha1 secret date.time =
        .ok (hotp hmacSha1 secret.key (date.time / 30000).toNat) := by
  intro h
  have hclaim := h asciiUpperCasing sampleHmac sampleSecret ⟨64424509440000, by decide⟩ (by decide)
  have hthrown : generate sampleHmac sampleSecret 64424509440000 =
      .error (outOfRange (-2147483648)) := by
    rw [generate_eq sampleHmac sampleSecret (by decide) (by decide)]
    rfl
  rw [hthrown] at hclaim
  exact nomatch hclaim

end Rfc6238TotpAlgorithm

end Verixa.Mfa
