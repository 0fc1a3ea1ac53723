import Mathlib.Data.Rat.Floor
import Verixa.SharedKernel.Number

/-!
# Arithmetic of numbers

The functions of `Math` and of arrays that take any number.  Sums are exact.
-/

namespace Verixa

namespace Number

/-- A number cut off towards zero. -/
def cutOff (value : ℚ) : ℤ := if 0 ≤ value then ⌊value⌋ else ⌈value⌉

/-- `Math.trunc(a)`. -/
def trunc : Number → Number
  | .finite value => .finite (cutOff value)
  | a => a

/-- `Math.max(a, b)`. -/
def max (a b : Number) : Number :=
  if a = .nan ∨ b = .nan then .nan else if a.lt b then b else a

/-- `Math.min(a, b)`. -/
def min (a b : Number) : Number :=
  if a = .nan ∨ b = .nan then .nan else if b.lt a then b else a

/-- `a + 1`. -/
def succ : Number → Number
  | .finite value => .finite (value + 1)
  | a => a

/-- `a * factor` for a positive factor. -/
def scale (factor : ℚ) : Number → Number
  | .finite value => .finite (value * factor)
  | a => a

/-- `Math.round(a)`, halves upwards. -/
def round : Number → Number
  | .finite value => .finite (⌊value + 1 / 2⌋ : ℤ)
  | a => a

/-- Where `slice(0, end)` of an array ends. -/
def sliceEnd (length : ℕ) : Number → ℕ
  | .nan => 0
  | .negativeInfinity => 0
  | .infinity => length
  | .finite value =>
    if cutOff value < 0 then (length + cutOff value).toNat else (cutOff value).toNat

end Number

/-- `items.slice(0, end)`. -/
def sliceTo {α : Type*} (items : List α) (sliceEnd : Number) : List α :=
  items.take (sliceEnd.sliceEnd items.length)

namespace Number

theorem cutOff_intCast (n : ℤ) : cutOff (n : ℚ) = n := by
  rw [cutOff, Int.floor_intCast, Int.ceil_intCast, ite_self]

theorem sliceTo_natCast {α : Type*} (items : List α) (n : ℕ) :
    sliceTo items (.finite n) = items.take n := by
  have hcut : cutOff (n : ℚ) = n := cutOff_intCast n
  rw [sliceTo, sliceEnd, hcut, if_neg (by omega), Int.toNat_natCast]

theorem succ_natCast (n : ℕ) : (finite n).succ = .finite (n + 1 : ℕ) := by
  rw [succ, Nat.cast_succ]

theorem lt_natCast (m n : ℕ) : (finite m).lt (.finite n) = decide (m < n) := by
  simp [lt]

/-- A number between bounds is one of the whole numbers between them, unless it is none. -/
theorem exists_clamp {low high : ℕ} (hlow : low ≤ high) {a : Number} (ha : a ≠ .nan) :
    ∃ n : ℕ, low ≤ n ∧ n ≤ high ∧ (a.trunc.max (.finite low)).min (.finite high) = .finite n := by
  have hbetween : ∀ z : ℤ, (low : ℤ) ≤ z →
      ∃ n : ℕ, low ≤ n ∧ n ≤ high ∧ (finite z).min (.finite high) = .finite n := by
    intro z hz
    by_cases hhigh : (high : ℤ) < z
    · refine ⟨high, hlow, le_rfl, ?_⟩
      have hlt : ((high : ℚ) < (z : ℚ)) := by exact_mod_cast hhigh
      simp [min, lt, hlt]
    · refine ⟨z.toNat, by omega, by omega, ?_⟩
      have hlt : ¬ ((high : ℚ) < (z : ℚ)) := by
        rw [not_lt]
        exact_mod_cast not_lt.mp hhigh
      have hcast : ((z.toNat : ℕ) : ℚ) = (z : ℚ) := by
        exact_mod_cast Int.toNat_of_nonneg (show 0 ≤ z by omega)
      simp [min, lt, hlt, hcast]
  cases a with
  | nan => exact absurd rfl ha
  | negativeInfinity =>
    have hmax : (trunc .negativeInfinity).max (.finite low) = .finite ((low : ℤ) : ℚ) := by
      simp [trunc, max, lt]
    rw [hmax]
    exact hbetween low le_rfl
  | infinity =>
    refine ⟨high, hlow, le_rfl, ?_⟩
    simp [trunc, max, min, lt]
  | finite value =>
    by_cases hsmall : cutOff value < (low : ℤ)
    · have hlt : ((cutOff value : ℤ) : ℚ) < (low : ℚ) := by exact_mod_cast hsmall
      have hmax : (trunc (.finite value)).max (.finite low) = .finite ((low : ℤ) : ℚ) := by
        simp [trunc, max, lt, hlt]
      rw [hmax]
      exact hbetween low le_rfl
    · have hlt : ¬ ((cutOff value : ℤ) : ℚ) < (low : ℚ) := by
        rw [not_lt]
        exact_mod_cast not_lt.mp hsmall
      have hmax : (trunc (.finite value)).max (.finite low) =
          .finite ((cutOff value : ℤ) : ℚ) := by
        simp [trunc, max, lt, hlt]
      rw [hmax]
      exact hbetween _ (not_lt.mp hsmall)

end Number

end Verixa
