import Mathlib.Data.Int.Log
import Mathlib.Algebra.Order.Ring.Rat
import Mathlib.Data.Rat.Floor
import Mathlib.Tactic

/-!
# Rounding to binary64

The number of 53 significant bits nearest to a rational number, of two the even one; below the
normal range the last place stays where it is.  Values beyond the largest finite number are not
cut off here.

A number that the format has (`Representable`) bounds the rounded number as it bounds the number
(`round_le`, `le_round`), rounding adds at most half a unit in the last place
(`round_le_add_half`) and keeps the order (`round_mono`).  From `2 ^ 53` on some natural numbers
are missing (`round_odd`, `round_succ`).
-/

namespace Binary64

/-- The nearest integer, of two the even one. -/
def roundEven (x : ℚ) : ℤ :=
  if x - ⌊x⌋ < 1 / 2 then ⌊x⌋
  else if 1 / 2 < x - ⌊x⌋ then ⌊x⌋ + 1
  else ⌊x⌋ + ⌊x⌋ % 2

/-- The exponent of the unit in the last place. -/
def exponent (x : ℚ) : ℤ := max (Int.log 2 |x| - 52) (-1074)

/-- The number of the format nearest to a rational number. -/
def round (x : ℚ) : ℚ := roundEven (x / 2 ^ exponent x) * 2 ^ exponent x

/-- A number of the format. -/
def Representable (x : ℚ) : Prop :=
  ∃ (significand : ℕ) (place : ℤ), significand < 2 ^ 53 ∧ -1074 ≤ place ∧
    x = significand * 2 ^ place

/-! ## The nearest integer -/

theorem roundEven_bounds (x : ℚ) : ⌊x⌋ ≤ roundEven x ∧ roundEven x ≤ ⌊x⌋ + 1 := by
  have hlow := Int.emod_nonneg ⌊x⌋ (by decide : (2 : ℤ) ≠ 0)
  have hhigh := Int.emod_lt_of_pos ⌊x⌋ (by decide : (0 : ℤ) < 2)
  rw [roundEven]
  split
  · omega
  · split <;> omega

/-- At most one half is added. -/
theorem roundEven_le_add_half (x : ℚ) : (roundEven x : ℚ) ≤ x + 1 / 2 := by
  have hfloor := Int.floor_le x
  rw [roundEven]
  split
  · linarith
  · rename_i hhalf
    split
    · push_cast
      linarith
    · have hhigh : ⌊x⌋ % 2 ≤ 1 := by
        have hlt := Int.emod_lt_of_pos ⌊x⌋ (by decide : (0 : ℤ) < 2)
        omega
      have hcast : ((⌊x⌋ % 2 : ℤ) : ℚ) ≤ 1 := by exact_mod_cast hhigh
      push_cast at hcast ⊢
      linarith

/-- An integer is its own nearest integer. -/
theorem roundEven_intCast (n : ℤ) : roundEven n = n := by
  rw [roundEven, Int.floor_intCast, sub_self, if_pos (by norm_num)]

/-- An integer above a number is above its nearest integer. -/
theorem roundEven_le {x : ℚ} {n : ℤ} (h : x ≤ n) : roundEven x ≤ n := by
  rcases h.lt_or_eq with hlt | rfl
  · have hfloor : ⌊x⌋ < n := Int.floor_lt.mpr hlt
    have hbound := (roundEven_bounds x).2
    omega
  · exact (roundEven_intCast n).le

/-- An integer below a number is below its nearest integer. -/
theorem le_roundEven {x : ℚ} {n : ℤ} (h : (n : ℚ) ≤ x) : n ≤ roundEven x :=
  (Int.le_floor.mpr h).trans (roundEven_bounds x).1

/-! ## The unit in the last place -/

theorem unit_pos (x : ℚ) : (0 : ℚ) < 2 ^ exponent x := zpow_pos (by norm_num) _

/-- Rounding adds at most half a unit in the last place. -/
theorem round_le_add_half (x : ℚ) : round x ≤ x + 2 ^ exponent x / 2 := by
  have hunit := unit_pos x
  have hscaled := mul_le_mul_of_nonneg_right (roundEven_le_add_half (x / 2 ^ exponent x)) hunit.le
  have hcancel : x / 2 ^ exponent x * 2 ^ exponent x = x := div_mul_cancel₀ x hunit.ne'
  calc round x ≤ (x / 2 ^ exponent x + 1 / 2) * 2 ^ exponent x := hscaled
    _ = x + 2 ^ exponent x / 2 := by rw [add_mul, hcancel]; ring

theorem exponent_mono {x y : ℚ} (hx : 0 < x) (h : x ≤ y) : exponent x ≤ exponent y := by
  rw [exponent, exponent, abs_of_pos hx, abs_of_pos (hx.trans_le h)]
  exact max_le_max_right _ (sub_le_sub_right (Int.log_mono_right hx h) 52)

/-- A number below a power of two has its last place accordingly low. -/
theorem exponent_le {x : ℚ} {k : ℤ} (hx : 0 < x) (h : x < 2 ^ k) (hk : -1021 ≤ k) :
    exponent x ≤ k - 53 := by
  have hlog : Int.log 2 x < k := (Int.lt_zpow_iff_log_lt (by decide) hx).mp (by exact_mod_cast h)
  rw [exponent, abs_of_pos hx]
  omega

/-- A number of the format is a multiple of any unit not above its own. -/
theorem Representable.multiple {y : ℚ} (h : Representable y) (hy : 0 < y) {e : ℤ}
    (he : e ≤ exponent y) : ∃ n : ℕ, y / 2 ^ e = n := by
  obtain ⟨m, j, hm, hj, rfl⟩ := h
  have htwo : (0 : ℚ) < 2 ^ j := zpow_pos (by norm_num) j
  have hplace : e ≤ j := by
    rw [exponent, abs_of_pos hy] at he
    rcases le_max_iff.mp he with hlog | hlow
    · have hpower : ((2 : ℕ) : ℚ) ^ (e + 52) ≤ m * 2 ^ j :=
        (Int.zpow_le_iff_le_log (by decide) hy).mpr (by omega)
      have hsize : (m : ℚ) * 2 ^ j < 2 ^ (53 + j) := by
        rw [zpow_add₀ (by norm_num)]
        exact mul_lt_mul_of_pos_right (by exact_mod_cast hm) htwo
      have hexp : (2 : ℚ) ^ (e + 52) < 2 ^ (53 + j) := by
        have hle := hpower.trans_lt hsize
        exact_mod_cast hle
      have hlt := (zpow_lt_zpow_iff_right₀ (by norm_num : (1 : ℚ) < 2)).mp hexp
      omega
    · omega
  refine ⟨m * 2 ^ (j - e).toNat, ?_⟩
  have hsplit : (2 : ℚ) ^ j = 2 ^ (j - e).toNat * 2 ^ e := by
    rw [← zpow_natCast, Int.toNat_of_nonneg (by omega), ← zpow_add₀ (by norm_num)]
    congr 1
    omega
  rw [hsplit]
  push_cast
  rw [← mul_assoc, mul_div_cancel_right₀ _ (zpow_ne_zero e (by norm_num))]

/-! ## Bounds by numbers of the format -/

theorem round_zero : round 0 = 0 := by
  have hzero : roundEven 0 = 0 := by exact_mod_cast roundEven_intCast 0
  rw [round, zero_div, hzero, Int.cast_zero, zero_mul]

/-- A number of the format above a number is above the rounded number. -/
theorem round_le {x y : ℚ} (hx : 0 ≤ x) (hy : Representable y) (h : x ≤ y) : round x ≤ y := by
  rcases hx.eq_or_lt with rfl | hpos
  · rwa [round_zero]
  · have hunit := unit_pos x
    obtain ⟨n, hn⟩ := hy.multiple (hpos.trans_le h) (exponent_mono hpos h)
    have hscaled : x / 2 ^ exponent x ≤ ((n : ℤ) : ℚ) := by
      rw [Int.cast_natCast, ← hn]
      exact div_le_div_of_nonneg_right h hunit.le
    have hround : ((roundEven (x / 2 ^ exponent x) : ℤ) : ℚ) ≤ y / 2 ^ exponent x := by
      rw [hn]
      exact_mod_cast roundEven_le hscaled
    exact (le_div_iff₀ hunit).mp hround

/-- Where the last place is higher, the least number with that last place lies in between. -/
theorem between_of_exponent_lt {x y : ℚ} (hy : 0 < y) (hx : 0 < x)
    (h : exponent y < exponent x) :
    y < (2 ^ 52 : ℕ) * 2 ^ exponent x ∧ ((2 ^ 52 : ℕ) : ℚ) * 2 ^ exponent x ≤ x := by
  have hlog : exponent x = Int.log 2 x - 52 ∧ Int.log 2 y + 1 ≤ Int.log 2 x := by
    rw [exponent, exponent, abs_of_pos hy, abs_of_pos hx] at h
    rw [exponent, abs_of_pos hx]
    omega
  have hpower : (2 : ℚ) ^ Int.log 2 x = (2 ^ 52 : ℕ) * 2 ^ exponent x := by
    have hcast : ((2 ^ 52 : ℕ) : ℚ) = 2 ^ (52 : ℤ) := by norm_num
    rw [hlog.1, hcast, ← zpow_add₀ (by norm_num), add_sub_cancel]
  rw [← hpower]
  constructor
  · have hself : y < 2 ^ (Int.log 2 y + 1) := by
      exact_mod_cast Int.lt_zpow_succ_log_self (R := ℚ) (b := 2) (by decide) y
    exact hself.trans_le (zpow_le_zpow_right₀ (by norm_num) hlog.2)
  · exact_mod_cast Int.zpow_log_le_self (R := ℚ) (b := 2) (by decide) hx

/-- Where the last place is higher, the rounded number is larger. -/
theorem lt_round_of_exponent_lt {x y : ℚ} (hy : 0 < y) (hx : 0 < x)
    (h : exponent y < exponent x) : y < round x := by
  have hunit := unit_pos x
  obtain ⟨hbelow, habove⟩ := between_of_exponent_lt hy hx h
  have hscaled : (((2 ^ 52 : ℕ) : ℤ) : ℚ) ≤ x / 2 ^ exponent x :=
    (le_div_iff₀ hunit).mpr (by exact_mod_cast habove)
  have hround : ((2 ^ 52 : ℕ) : ℚ) ≤ roundEven (x / 2 ^ exponent x) := by
    exact_mod_cast le_roundEven hscaled
  calc y < (2 ^ 52 : ℕ) * 2 ^ exponent x := hbelow
    _ ≤ round x := mul_le_mul_of_nonneg_right hround hunit.le

/-- A number of the format below a number is below the rounded number. -/
theorem le_round {x y : ℚ} (hy0 : 0 ≤ y) (hy : Representable y) (h : y ≤ x) : y ≤ round x := by
  have hunit := unit_pos x
  rcases hy0.eq_or_lt with rfl | hpos
  · have hscaled : ((0 : ℤ) : ℚ) ≤ x / 2 ^ exponent x := by
      rw [Int.cast_zero]
      exact div_nonneg h hunit.le
    have hround : (0 : ℚ) ≤ roundEven (x / 2 ^ exponent x) := by
      exact_mod_cast le_roundEven hscaled
    exact mul_nonneg hround hunit.le
  · have hx : 0 < x := hpos.trans_le h
    rcases (exponent_mono hpos h).lt_or_eq with hlt | heq
    · exact (lt_round_of_exponent_lt hpos hx hlt).le
    · obtain ⟨n, hn⟩ := hy.multiple hpos heq.ge
      have hscaled : ((n : ℤ) : ℚ) ≤ x / 2 ^ exponent x := by
        rw [Int.cast_natCast, ← hn]
        exact div_le_div_of_nonneg_right h hunit.le
      have hround : y / 2 ^ exponent x ≤ ((roundEven (x / 2 ^ exponent x) : ℤ) : ℚ) := by
        rw [hn]
        exact_mod_cast le_roundEven hscaled
      exact (div_le_iff₀ hunit).mp hround

/-- A number of the format is not changed. -/
theorem Representable.round_eq {x : ℚ} (h : Representable x) (hx : 0 ≤ x) : round x = x :=
  le_antisymm (round_le hx h le_rfl) (le_round hx h le_rfl)

/-- Natural numbers below 2^53 are numbers of the format. -/
theorem representable_natCast {n : ℕ} (h : n < 2 ^ 53) : Representable n :=
  ⟨n, 0, h, by decide, by rw [zpow_zero, mul_one]⟩

/-! ## Order -/

/-- A smaller number has no larger nearest integer. -/
theorem roundEven_mono {x y : ℚ} (h : x ≤ y) : roundEven x ≤ roundEven y := by
  rcases (Int.floor_mono h).lt_or_eq with hlt | heq
  · have hx := (roundEven_bounds x).2
    have hy := (roundEven_bounds y).1
    omega
  · have hlow := Int.emod_nonneg ⌊y⌋ (by decide : (2 : ℤ) ≠ 0)
    have hhigh := Int.emod_lt_of_pos ⌊y⌋ (by decide : (0 : ℤ) < 2)
    rw [roundEven, roundEven, heq]
    split_ifs <;> first | omega | (exfalso; linarith)

/-- Of two nearest integers the even one is the same on either side of zero. -/
theorem roundEven_neg (x : ℚ) : roundEven (-x) = -roundEven x := by
  by_cases hint : x = ⌊x⌋
  · rw [hint, ← Int.cast_neg, roundEven_intCast, roundEven_intCast]
  · have hlow : (⌊x⌋ : ℚ) < x := lt_of_le_of_ne (Int.floor_le x) (Ne.symm hint)
    have hhigh := Int.lt_floor_add_one x
    have hfloor : ⌊-x⌋ = -⌊x⌋ - 1 := by
      rw [Int.floor_eq_iff]
      push_cast
      constructor <;> linarith
    rw [roundEven, roundEven, hfloor]
    push_cast
    split_ifs <;> first | omega | (exfalso; linarith)

theorem round_neg (x : ℚ) : round (-x) = -round x := by
  have hexponent : exponent (-x) = exponent x := by rw [exponent, exponent, abs_neg]
  rw [round, round, hexponent, neg_div, roundEven_neg, Int.cast_neg, neg_mul]

theorem round_nonneg {x : ℚ} (h : 0 ≤ x) : 0 ≤ round x := by
  have hzero : Representable 0 := representable_natCast (n := 0) (by decide)
  exact le_round le_rfl hzero h

/-- Of positive numbers a smaller one is not rounded to a larger one. -/
theorem round_mono_of_pos {x y : ℚ} (hx : 0 < x) (h : x ≤ y) : round x ≤ round y := by
  rcases (exponent_mono hx h).lt_or_eq with hlt | heq
  · -- the least number with the higher last place lies in between
    obtain ⟨hbelow, habove⟩ := between_of_exponent_lt hx (hx.trans_le h) hlt
    have hplace : -1074 ≤ exponent y := le_max_right _ _
    have hrepresentable : Representable ((2 ^ 52 : ℕ) * 2 ^ exponent y) :=
      ⟨2 ^ 52, exponent y, by decide, hplace, rfl⟩
    exact (round_le hx.le hrepresentable hbelow.le).trans
      (le_round (hx.trans hbelow).le hrepresentable habove)
  · rw [round, round, heq]
    have hunit := unit_pos y
    have hscaled : x / 2 ^ exponent y ≤ y / 2 ^ exponent y :=
      div_le_div_of_nonneg_right h hunit.le
    have hround : (roundEven (x / 2 ^ exponent y) : ℚ) ≤ roundEven (y / 2 ^ exponent y) := by
      exact_mod_cast roundEven_mono hscaled
    exact mul_le_mul_of_nonneg_right hround hunit.le

/-- A smaller number is not rounded to a larger one. -/
theorem round_mono {x y : ℚ} (h : x ≤ y) : round x ≤ round y := by
  rcases lt_trichotomy x 0 with hx | rfl | hx
  · rcases lt_or_ge y 0 with hy | hy
    · have hneg := round_mono_of_pos (neg_pos.mpr hy) (neg_le_neg h)
      rw [round_neg, round_neg] at hneg
      exact neg_le_neg_iff.mp hneg
    · have hneg := round_nonneg (neg_nonneg.mpr hx.le)
      rw [round_neg] at hneg
      exact (neg_nonneg.mp hneg).trans (round_nonneg hy)
  · rw [round_zero]
    exact round_nonneg h
  · exact round_mono_of_pos hx h

/-! ## Natural numbers -/

/-- Between two powers of two the unit in the last place is the same. -/
theorem exponent_natCast {n k : ℕ} (hlow : 2 ^ (k + 52) ≤ n) (hhigh : n < 2 ^ (k + 53)) :
    exponent (n : ℚ) = k := by
  have hlog : Nat.log 2 n = k + 52 := Nat.log_eq_of_pow_le_of_lt_pow hlow hhigh
  rw [exponent, Nat.abs_cast, Int.log_natCast, hlog]
  push_cast
  omega

/-- From a power of two on the unit in the last place is no smaller. -/
theorem le_exponent_natCast {n k : ℕ} (hlow : 2 ^ (k + 52) ≤ n) : (k : ℤ) ≤ exponent (n : ℚ) := by
  have hlog : k + 52 ≤ Nat.log 2 n := Nat.le_log_of_pow_le (by decide) hlow
  rw [exponent, Nat.abs_cast, Int.log_natCast]
  omega

/-- Half-way between two integers the even one is taken. -/
theorem roundEven_add_half (k : ℤ) : roundEven (k + 1 / 2) = k + k % 2 := by
  have hfloor : ⌊(k : ℚ) + 1 / 2⌋ = k := by
    rw [Int.floor_intCast_add]
    norm_num
  rw [roundEven, hfloor, add_sub_cancel_left, if_neg (lt_irrefl _), if_neg (lt_irrefl _)]

/-- Between `2 ^ 53` and `2 ^ 54` an odd number goes to the multiple of four beside it. -/
theorem round_odd {j : ℕ} (hlow : 2 ^ 52 ≤ j) (hhigh : j < 2 ^ 53) :
    round ((2 * j + 1 : ℕ) : ℚ) = (2 * (j + j % 2) : ℕ) := by
  have hexponent : exponent ((2 * j + 1 : ℕ) : ℚ) = (1 : ℕ) :=
    exponent_natCast (by omega) (by omega)
  have hscaled : ((2 * j + 1 : ℕ) : ℚ) / 2 ^ ((1 : ℕ) : ℤ) = ((j : ℤ) : ℚ) + 1 / 2 := by
    push_cast
    ring
  have hparity : (j : ℤ) + j % 2 = ((j + j % 2 : ℕ) : ℤ) := by
    push_cast
    rfl
  rw [round, hexponent, hscaled, roundEven_add_half, hparity, Int.cast_natCast, zpow_natCast,
    pow_one, Nat.cast_mul, mul_comm, Nat.cast_ofNat]

/-- The larger a natural number of the format is, the more often it can be halved. -/
theorem Representable.pow_dvd {n k : ℕ} (h : Representable n) (hlow : 2 ^ (k + 52) ≤ n) :
    2 ^ k ∣ n := by
  have hpos : 0 < n := (Nat.two_pow_pos _).trans_le hlow
  obtain ⟨m, hm⟩ := h.multiple (by exact_mod_cast hpos) (le_exponent_natCast hlow)
  refine ⟨m, ?_⟩
  rw [div_eq_iff (by positivity), zpow_natCast] at hm
  have hnat : n = m * 2 ^ k := by exact_mod_cast hm
  rw [hnat, Nat.mul_comm]

/-- Multiples of a power of two are numbers of the format further on. -/
theorem representable_of_dvd {n k : ℕ} (hdvd : 2 ^ k ∣ n) (h : n < 2 ^ (k + 53)) :
    Representable (n : ℚ) := by
  obtain ⟨m, rfl⟩ := hdvd
  have hm : m < 2 ^ 53 := by
    rw [pow_add] at h
    exact Nat.lt_of_mul_lt_mul_left h
  refine ⟨m, k, hm, by omega, ?_⟩
  rw [zpow_natCast]
  push_cast
  ring

/-- A number below `2 ^ 53` is what no other is rounded to. -/
theorem natCast_eq_of_round_eq {m n : ℕ} (hn : n < 2 ^ 53)
    (h : round (m : ℚ) = round (n : ℚ)) : m = n := by
  rw [(representable_natCast hn).round_eq (Nat.cast_nonneg n)] at h
  rcases lt_or_ge m (2 ^ 53) with hm | hm
  · rw [(representable_natCast hm).round_eq (Nat.cast_nonneg m)] at h
    exact_mod_cast h
  · have hpower : Representable ((2 ^ 53 : ℕ) : ℚ) :=
      representable_of_dvd (k := 1) (by decide) (by decide)
    have hle : ((2 ^ 53 : ℕ) : ℚ) ≤ round (m : ℚ) :=
      le_round (Nat.cast_nonneg _) hpower (by exact_mod_cast hm)
    rw [h] at hle
    exact absurd (by exact_mod_cast hle) (not_le.mpr hn)

/-- The rounded number is a number of the format. -/
theorem representable_round {x : ℚ} (hx : 0 ≤ x) : Representable (round x) := by
  rcases hx.eq_or_lt with rfl | hpos
  · rw [round_zero]
    exact_mod_cast representable_natCast (n := 0) (by decide)
  · have hunit := unit_pos x
    have hplace : -1074 ≤ exponent x := le_max_right _ _
    have hself : x < 2 ^ (Int.log 2 x + 1) := by
      exact_mod_cast Int.lt_zpow_succ_log_self (R := ℚ) (b := 2) (by decide) x
    have hsize : x / 2 ^ exponent x ≤ ((2 ^ 53 : ℤ) : ℚ) := by
      have hexponent : Int.log 2 x + 1 ≤ 53 + exponent x := by
        have hle : Int.log 2 |x| - 52 ≤ exponent x := le_max_left _ _
        rw [abs_of_pos hpos] at hle
        omega
      have hpower : (2 : ℚ) ^ (Int.log 2 x + 1) ≤ 2 ^ (53 : ℤ) * 2 ^ exponent x := by
        rw [← zpow_add₀ (by norm_num)]
        exact zpow_le_zpow_right₀ (by norm_num) hexponent
      rw [div_le_iff₀ hunit]
      exact_mod_cast hself.le.trans hpower
    have hlow : 0 ≤ roundEven (x / 2 ^ exponent x) :=
      le_roundEven (by exact_mod_cast (div_pos hpos hunit).le)
    have hhigh : roundEven (x / 2 ^ exponent x) ≤ 2 ^ 53 := roundEven_le hsize
    rw [round]
    generalize roundEven (x / 2 ^ exponent x) = significand at hlow hhigh ⊢
    rcases hhigh.lt_or_eq with hlt | rfl
    · refine ⟨significand.toNat, exponent x, by omega, hplace, ?_⟩
      have hcast : ((significand.toNat : ℤ) : ℚ) = significand := by
        rw [Int.toNat_of_nonneg hlow]
      rw [← hcast, Int.cast_natCast]
    · -- the rounding has gone up to the next power of two
      refine ⟨2 ^ 52, exponent x + 1, by decide, by omega, ?_⟩
      rw [zpow_add₀ (by norm_num)]
      push_cast
      ring

/-- A natural number is rounded to a natural number. -/
theorem exists_round_natCast (n : ℕ) : ∃ m : ℕ, round (n : ℚ) = m := by
  rcases lt_or_ge n (2 ^ 53) with hsmall | hlarge
  · exact ⟨n, (representable_natCast hsmall).round_eq (by positivity)⟩
  · obtain ⟨e, he⟩ := Int.eq_ofNat_of_zero_le
      ((Nat.cast_nonneg 1).trans (le_exponent_natCast hlarge))
    have hnonneg : 0 ≤ roundEven ((n : ℚ) / 2 ^ exponent (n : ℚ)) :=
      le_roundEven (by exact_mod_cast div_nonneg (Nat.cast_nonneg n) (unit_pos _).le)
    obtain ⟨significand, hsignificand⟩ := Int.eq_ofNat_of_zero_le hnonneg
    refine ⟨significand * 2 ^ e, ?_⟩
    rw [round, hsignificand, he, zpow_natCast]
    push_cast
    ring

/-- From `2 ^ 54` on the number after one of the format is rounded down to it. -/
theorem round_succ {n : ℕ} (h : Representable n) (hlow : 2 ^ 54 ≤ n) :
    round ((n + 1 : ℕ) : ℚ) = n := by
  have hpos : (0 : ℚ) < n := by
    have hnat : 0 < n := by omega
    exact_mod_cast hnat
  have hle : (n : ℚ) ≤ ((n + 1 : ℕ) : ℚ) := by exact_mod_cast Nat.le_succ n
  have htwo : ((2 : ℕ) : ℤ) ≤ exponent (n : ℚ) := le_exponent_natCast hlow
  have hfour : 4 ∣ n := h.pow_dvd (k := 2) hlow
  have hsame : exponent ((n + 1 : ℕ) : ℚ) = exponent (n : ℚ) := by
    rcases (exponent_mono hpos hle).lt_or_eq with hlt | heq
    · -- the power of two in between would be odd
      exfalso
      obtain ⟨hbelow, habove⟩ := between_of_exponent_lt hpos (hpos.trans_le hle) hlt
      obtain ⟨e, he⟩ := Int.eq_ofNat_of_zero_le
        ((Int.natCast_nonneg 2).trans (htwo.trans (exponent_mono hpos hle)))
      rw [he, zpow_natCast] at hbelow habove
      have hlower : n < 2 ^ 52 * 2 ^ e := by exact_mod_cast hbelow
      have hupper : 2 ^ 52 * 2 ^ e ≤ n + 1 := by exact_mod_cast habove
      omega
    · exact heq.symm
  obtain ⟨m, hm⟩ := h.multiple hpos le_rfl
  have hunit := unit_pos (n : ℚ)
  have hquarter : (1 : ℚ) / 2 ^ exponent (n : ℚ) ≤ 1 / 4 := by
    have hpower : (2 : ℚ) ^ (2 : ℤ) ≤ 2 ^ exponent (n : ℚ) :=
      zpow_le_zpow_right₀ (by norm_num) htwo
    have hfourth : (2 : ℚ) ^ (2 : ℤ) = 4 := by norm_num
    rw [hfourth] at hpower
    exact one_div_le_one_div_of_le (by norm_num) hpower
  have hscaled : ((n + 1 : ℕ) : ℚ) / 2 ^ exponent (n : ℚ) = m + 1 / 2 ^ exponent (n : ℚ) := by
    rw [← hm]
    push_cast
    ring
  have hfloor : ⌊(m : ℚ) + 1 / 2 ^ exponent (n : ℚ)⌋ = m := by
    rw [Int.floor_eq_iff]
    have hpositive : (0 : ℚ) < 1 / 2 ^ exponent (n : ℚ) := by positivity
    constructor
    · push_cast
      linarith
    · push_cast
      linarith
  rw [round, hsame, hscaled, roundEven, hfloor, if_pos (by push_cast; linarith)]
  exact ((div_eq_iff hunit.ne').mp hm).symm

end Binary64
