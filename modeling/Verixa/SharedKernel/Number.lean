import Mathlib.Data.Rat.Defs
import Mathlib.Algebra.Order.Ring.Rat

/-!
# Numbers

The values of type `number`, as far as comparisons see them: the finite ones, of which `0` and `-0`
are one, the two infinities, and the value that is no number and compares to nothing.
-/

namespace Verixa

/-- A value of type `number`. -/
inductive Number where
  | nan
  | negativeInfinity
  | finite (value : ℚ)
  | infinity
  deriving DecidableEq

namespace Number

/-- `Number.isFinite(a)`. -/
def isFinite : Number → Bool
  | .finite _ => true
  | _ => false

/-- `a === b`. -/
def strictEq : Number → Number → Bool
  | .nan, _ => false
  | a, b => decide (a = b)

/-- The comparison of `includes`, by which `NaN` is found. -/
def sameValueZero (a b : Number) : Bool := decide (a = b)

/-- `a < b`. -/
def lt : Number → Number → Bool
  | .nan, _ => false
  | _, .nan => false
  | .negativeInfinity, b => decide (b ≠ .negativeInfinity)
  | .finite a, .finite b => decide (a < b)
  | .finite _, .infinity => true
  | .finite _, .negativeInfinity => false
  | .infinity, _ => false

/-- `a <= b`. -/
def le (a b : Number) : Bool := a.lt b || a.strictEq b

theorem strictEq_iff {a b : Number} : a.strictEq b = true ↔ a = b ∧ a ≠ .nan := by
  cases a <;> simp [strictEq]

theorem strictEq_self {a : Number} (h : a.isFinite = true) : a.strictEq a = true := by
  rw [strictEq_iff]
  refine ⟨rfl, ?_⟩
  rintro rfl
  exact nomatch h

end Number

end Verixa
