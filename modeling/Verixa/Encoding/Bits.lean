import Verixa.Encoding.Bytes

/-!
# Bits

Numbers as rows of bits, the most significant first, and the low bits of a 32-bit word as a queue.
A word to which bits are shifted in loses its high bits; what its low bits are in the meantime is
`Holds`, and a word that holds a row of bits gives any part of it back (`Holds.extract`).
-/

namespace Encoding

/-- The number that bits denote, the most significant first. -/
def ofBits (bits : List Bool) : ℕ := bits.foldl (fun value bit => value * 2 + bit.toNat) 0

/-- The low `width` bits of a number, the most significant first. -/
def toBits : ℕ → ℕ → List Bool
  | 0, _ => []
  | width + 1, n => n.testBit width :: toBits width n

/-- The bits of a row of bytes. -/
def bitsOf (bytes : Bytes) : List Bool := bytes.flatMap fun byte => toBits 8 byte.toNat

/-- The bytes of a row of bits; bits that fill no byte are dropped. -/
def octets : List Bool → Bytes
  | a :: b :: c :: d :: e :: f :: g :: h :: bits =>
    UInt8.ofNat (ofBits [a, b, c, d, e, f, g, h]) :: octets bits
  | _ => []

/-! ## Numbers and rows of bits -/

@[simp] theorem ofBits_nil : ofBits [] = 0 := rfl

theorem foldl_bits (bits : List Bool) (start : ℕ) :
    bits.foldl (fun value bit => value * 2 + bit.toNat) start =
      start * 2 ^ bits.length + ofBits bits := by
  induction bits generalizing start with
  | nil => rw [List.foldl_nil, ofBits_nil, List.length_nil, pow_zero, mul_one, add_zero]
  | cons bit bits ih =>
    have hcons : ofBits (bit :: bits) = (0 * 2 + bit.toNat) * 2 ^ bits.length + ofBits bits :=
      ih (0 * 2 + bit.toNat)
    rw [List.foldl_cons, ih, hcons, List.length_cons, pow_succ]
    ring

/-- The bits that follow others count less. -/
theorem ofBits_append (high low : List Bool) :
    ofBits (high ++ low) = ofBits high * 2 ^ low.length + ofBits low := by
  rw [ofBits, List.foldl_append, foldl_bits]
  rfl

theorem ofBits_cons (bit : Bool) (bits : List Bool) :
    ofBits (bit :: bits) = bit.toNat * 2 ^ bits.length + ofBits bits := by
  rw [← List.singleton_append, ofBits_append]
  cases bit <;> rfl

theorem ofBits_lt (bits : List Bool) : ofBits bits < 2 ^ bits.length := by
  induction bits with
  | nil => exact Nat.one_pos
  | cons bit bits ih =>
    have hbit : bit.toNat ≤ 1 := Bool.toNat_le bit
    have hhigh : bit.toNat * 2 ^ bits.length ≤ 1 * 2 ^ bits.length :=
      Nat.mul_le_mul_right _ hbit
    rw [ofBits_cons, List.length_cons, pow_succ]
    omega

@[simp] theorem length_toBits (width n : ℕ) : (toBits width n).length = width := by
  induction width with
  | zero => rfl
  | succ width ih => rw [toBits, List.length_cons, ih]

/-- The low bits of a number denote its remainder. -/
theorem ofBits_toBits (width n : ℕ) : ofBits (toBits width n) = n % 2 ^ width := by
  induction width with
  | zero => rw [toBits, ofBits_nil, pow_zero, Nat.mod_one]
  | succ width ih =>
    rw [toBits, ofBits_cons, ih, length_toBits, Nat.mod_pow_succ, Nat.testBit_eq_decide_div_mod_eq]
    rcases Nat.mod_two_eq_zero_or_one (n / 2 ^ width) with hbit | hbit
    · simp [hbit]
    · simp [hbit, Nat.add_comm]

theorem ofBits_toBits_of_lt {width n : ℕ} (h : n < 2 ^ width) : ofBits (toBits width n) = n := by
  rw [ofBits_toBits, Nat.mod_eq_of_lt h]

/-- Two rows of the same length that denote one number are the same. -/
theorem eq_of_ofBits_eq {a b : List Bool} (hlength : a.length = b.length)
    (h : ofBits a = ofBits b) : a = b := by
  induction a generalizing b with
  | nil => exact (List.length_eq_zero_iff.mp hlength.symm).symm
  | cons bit bits ih =>
    cases b with
    | nil => exact absurd hlength (Nat.succ_ne_zero _)
    | cons bit' bits' =>
      have hrest : bits.length = bits'.length := Nat.succ.inj hlength
      have hlow := ofBits_lt bits
      have hlow' := ofBits_lt bits'
      rw [ofBits_cons, ofBits_cons, hrest] at h
      rw [hrest] at hlow
      have hbit : bit = bit' := by
        cases bit <;> cases bit' <;> simp only [Bool.toNat_true, Bool.toNat_false] at h ⊢ <;> omega
      subst hbit
      rw [ih hrest (Nat.add_left_cancel h)]

/-- Zero has nothing but zeros. -/
theorem toBits_zero (width : ℕ) : toBits width 0 = List.replicate width false := by
  induction width with
  | zero => rfl
  | succ width ih => rw [toBits, ih, Nat.zero_testBit, List.replicate_succ]

/-- The bits of the number that a row denotes are the row. -/
theorem toBits_ofBits (bits : List Bool) : toBits bits.length (ofBits bits) = bits :=
  eq_of_ofBits_eq (length_toBits _ _) (ofBits_toBits_of_lt (ofBits_lt bits))

/-! ## Bytes and rows of bits -/

theorem bitsOf_cons (byte : UInt8) (bytes : Bytes) :
    bitsOf (byte :: bytes) = toBits 8 byte.toNat ++ bitsOf bytes := List.flatMap_cons

theorem length_octets (bits : List Bool) : (octets bits).length = bits.length / 8 := by
  fun_induction octets bits with
  | case1 a b c d e f g h bits ih =>
    simp only [List.length_cons, ih]
    omega
  | case2 bits hshort =>
    have hlt : bits.length < 8 := by
      rcases bits with _ | ⟨a, _ | ⟨b, _ | ⟨c, _ | ⟨d, _ | ⟨e, _ | ⟨f, _ | ⟨g, _ | ⟨h, bits⟩⟩⟩⟩⟩⟩⟩⟩
      case cons.cons.cons.cons.cons.cons.cons.cons =>
        exact absurd rfl (hshort a b c d e f g h bits)
      all_goals simp only [List.length_cons, List.length_nil]; omega
    rw [List.length_nil, Nat.div_eq_of_lt hlt]

/-- Eight bits at the head make a byte. -/
theorem octets_append {head : List Bool} (hhead : head.length = 8) (bits : List Bool) :
    octets (head ++ bits) = UInt8.ofNat (ofBits head) :: octets bits := by
  obtain ⟨a, b, c, d, e, f, g, h, rfl⟩ : ∃ a b c d e f g h, head = [a, b, c, d, e, f, g, h] := by
    rcases head with _ | ⟨a, _ | ⟨b, _ | ⟨c, _ | ⟨d, _ | ⟨e, _ | ⟨f, _ | ⟨g, _ | ⟨h, bits⟩⟩⟩⟩⟩⟩⟩⟩
    case cons.cons.cons.cons.cons.cons.cons.cons =>
      cases bits with
      | nil => exact ⟨a, b, c, d, e, f, g, h, rfl⟩
      | cons i bits => simp only [List.length_cons] at hhead; omega
    all_goals simp only [List.length_cons, List.length_nil] at hhead; omega
  rfl

/-- Fewer than eight bits make no byte. -/
theorem octets_of_lt {bits : List Bool} (h : bits.length < 8) : octets bits = [] := by
  rw [← List.length_eq_zero_iff, length_octets, Nat.div_eq_of_lt h]

/-- The bytes of the bits of bytes are the bytes, also with fewer than eight bits after them. -/
theorem octets_bitsOf_append (bytes : Bytes) {rest : List Bool} (hrest : rest.length < 8) :
    octets (bitsOf bytes ++ rest) = bytes := by
  induction bytes with
  | nil => exact octets_of_lt hrest
  | cons byte bytes ih =>
    rw [bitsOf_cons, List.append_assoc, octets_append (length_toBits 8 _), ih,
      ofBits_toBits_of_lt (show byte.toNat < 2 ^ 8 from byte.toNat_lt), UInt8.ofNat_toNat]

/-! ## A word as a queue of bits -/

/-- The low bits of the word are the given ones. -/
def Holds (word : UInt32) (bits : List Bool) : Prop :=
  word.toNat % 2 ^ bits.length = ofBits bits

theorem holds_nil (word : UInt32) : Holds word [] := by
  rw [Holds, List.length_nil, pow_zero, Nat.mod_one, ofBits_nil]

/-- Bits shifted in are held after those held before, as long as the word has room for all. -/
theorem Holds.push {word x : UInt32} {bits : List Bool} {width : ℕ} (h : Holds word bits)
    (hx : x.toNat < 2 ^ width) (hroom : bits.length + width ≤ 32) (hwidth : width < 32) :
    Holds ((word <<< UInt32.ofNat width) ||| x) (bits ++ toBits width x.toNat) := by
  have hshift : (word <<< UInt32.ofNat width).toNat = word.toNat * 2 ^ width % 2 ^ 32 := by
    rw [UInt32.toNat_shiftLeft, UInt32.toNat_ofNat', Nat.mod_eq_of_lt (a := width) (by omega),
      Nat.mod_eq_of_lt hwidth, Nat.shiftLeft_eq]
  have hcut : 2 ^ (bits.length + width) ∣ 2 ^ 32 := Nat.pow_dvd_pow 2 hroom
  have hx' : x.toNat < 2 ^ (bits.length + width) :=
    hx.trans_le (Nat.pow_le_pow_right Nat.two_pos (Nat.le_add_left _ _))
  have hheld : word.toNat * 2 ^ width % 2 ^ (bits.length + width) = ofBits bits * 2 ^ width := by
    rw [pow_add, Nat.mul_mod_mul_right, h]
  have hor : (ofBits bits * 2 ^ width) ||| x.toNat = ofBits bits * 2 ^ width + x.toNat := by
    rw [← Nat.shiftLeft_eq, Nat.shiftLeft_add_eq_or_of_lt hx]
  rw [Holds, List.length_append, length_toBits, UInt32.toNat_or, Nat.or_mod_two_pow, hshift,
    Nat.mod_mod_of_dvd _ hcut, hheld, Nat.mod_eq_of_lt hx', hor, ofBits_append, length_toBits,
    ofBits_toBits_of_lt hx]

/-- A shift alone appends zeros. -/
theorem Holds.shift {word : UInt32} {bits : List Bool} {width : ℕ} (h : Holds word bits)
    (hroom : bits.length + width ≤ 32) (hwidth : width < 32) :
    Holds (word <<< UInt32.ofNat width) (bits ++ List.replicate width false) := by
  have hpush := h.push (x := 0) (Nat.two_pow_pos width) hroom hwidth
  rwa [UInt32.or_zero, UInt32.toNat_zero, toBits_zero] at hpush

/-- What is held after some bits is held. -/
theorem Holds.drop {word : UInt32} {high low : List Bool} (h : Holds word (high ++ low)) :
    Holds word low := by
  have hdvd : 2 ^ low.length ∣ 2 ^ (high ++ low).length :=
    Nat.pow_dvd_pow 2 (by rw [List.length_append]; exact Nat.le_add_left _ _)
  rw [Holds, ← Nat.mod_mod_of_dvd _ hdvd, h, ofBits_append,
    Nat.mul_add_mod_of_lt (ofBits_lt low)]

/-- All bits that are held are read by a mask. -/
theorem Holds.mask {word : UInt32} {bits : List Bool} (h : Holds word bits)
    (hlength : bits.length < 32) :
    (word &&& UInt32.ofNat (2 ^ bits.length - 1)).toNat = ofBits bits := by
  have hmask : (UInt32.ofNat (2 ^ bits.length - 1)).toNat = 2 ^ bits.length - 1 := by
    have hle : 2 ^ bits.length ≤ 2 ^ 31 := Nat.pow_le_pow_right Nat.two_pos (by omega)
    rw [UInt32.toNat_ofNat', Nat.mod_eq_of_lt (by omega)]
  rw [UInt32.toNat_and, hmask, Nat.and_two_pow_sub_one_eq_mod, h]

/-- After a shift a word holds what stood before the bits that it lost. -/
theorem Holds.shiftRight {word : UInt32} {high low : List Bool} (h : Holds word (high ++ low))
    (hlow : low.length < 32) : Holds (word >>> UInt32.ofNat low.length) high := by
  have hshift : (word >>> UInt32.ofNat low.length).toNat = word.toNat / 2 ^ low.length := by
    rw [UInt32.toNat_shiftRight, UInt32.toNat_ofNat', Nat.mod_eq_of_lt (a := low.length) (by omega),
      Nat.mod_eq_of_lt hlow, Nat.shiftRight_eq_div_pow]
  have hparts : word.toNat / 2 ^ low.length % 2 ^ high.length =
      word.toNat % 2 ^ (high ++ low).length / 2 ^ low.length := by
    rw [List.length_append, Nat.add_comm, pow_add, Nat.mod_mul_right_div_self]
  rw [Holds, hshift, hparts, h, ofBits_append, Nat.mul_comm,
    Nat.mul_add_div (Nat.two_pow_pos _), Nat.div_eq_of_lt (ofBits_lt low), add_zero]

/-- Bits that are held are read by a shift and a mask. -/
theorem Holds.extract {word : UInt32} {high low : List Bool} (h : Holds word (high ++ low))
    (hlow : low.length < 32) (hhigh : high.length < 32) :
    ((word >>> UInt32.ofNat low.length) &&& UInt32.ofNat (2 ^ high.length - 1)).toNat =
      ofBits high :=
  (h.shiftRight hlow).mask hhigh

end Encoding
