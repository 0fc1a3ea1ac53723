import Verixa.SharedKernel.IsoDate

/-!
# Errors

The errors that the use cases share: those they return when an authentication fails, and those
they throw.
-/

namespace Verixa

/-- The one error of every failed authentication. -/
structure AuthenticationError where
  message : String := "Invalid email or password."
  deriving DecidableEq

/-- The error of an authentication refused because the account is locked. -/
structure AccountLockedError where
  message : String := "Invalid email or password."
  deriving DecidableEq

/-- The code of both. -/
def AUTHENTICATION_FAILED : String := "AUTHENTICATION_FAILED"

def AuthenticationError.code (_ : AuthenticationError) : String := AUTHENTICATION_FAILED

def AuthenticationError.httpStatusHint (_ : AuthenticationError) : ℕ := 401

def AccountLockedError.code (_ : AccountLockedError) : String := AUTHENTICATION_FAILED

def AccountLockedError.httpStatusHint (_ : AccountLockedError) : ℕ := 401

/-- An exception that a use case does not catch. -/
structure ThrownError where
  name : String := "Error"
  message : String
  deriving DecidableEq

/-- `new Date(time).toISOString()` throws on an invalid date. -/
def isoTextOf (time : ℤ) : Except ThrownError String :=
  match Date.ofTime? time with
  | some date => .ok date.toISOString
  | none => .error ⟨"RangeError", "Invalid time value"⟩

/-! ## Computations that may throw -/

/-- Two computations in a row that return. -/
theorem bind_eq_ok {α β : Type} {first : Except ThrownError α} {rest : α → Except ThrownError β}
    {b : β} (h : first >>= rest = .ok b) : ∃ a, first = .ok a ∧ rest a = .ok b := by
  cases first with
  | error error => exact nomatch h
  | ok a => exact ⟨a, rfl, h⟩

/-- Two computations in a row that fail. -/
theorem bind_eq_error {α β : Type} {first : Except ThrownError α}
    {rest : α → Except ThrownError β} {error : ThrownError} (h : first >>= rest = .error error) :
    first = .error error ∨ ∃ a, first = .ok a ∧ rest a = .error error := by
  cases first with
  | error other =>
    cases h
    exact .inl rfl
  | ok a => exact .inr ⟨a, rfl, h⟩

end Verixa
