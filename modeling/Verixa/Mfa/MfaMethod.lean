import Mathlib.Data.Int.Notation
import Verixa.SharedKernel.Errors

/-!
# Second factors

A second factor that a user has enrolled: its status, its secret, and what is remembered of
verifications, which are the consecutive failures, until when the method is locked, and the last
time step a code was taken for.

The transitions of the source change the object and throw where they cannot.  Here they return the
changed method, or what is thrown; one that throws has changed nothing.
-/

namespace Verixa.Mfa

inductive MfaMethodType where
  | totp
  | webauthn
  | backup_codes
  deriving DecidableEq

inductive MfaMethodStatus where
  | pending
  | active
  | disabled
  deriving DecidableEq

/-- A method that a user has enrolled. -/
structure MfaMethod where
  id : String
  userId : String
  type : MfaMethodType
  status : MfaMethodStatus
  secret : Option String
  lastUsedAt : Option ℤ
  createdAt : ℤ
  updatedAt : ℤ
  failedAttempts : ℕ
  lockedUntil : Option ℤ
  lastUsedStep : Option ℤ
  deriving DecidableEq

/-- Consecutive failed challenges tolerated before a lockout begins. -/
def LOCKOUT_THRESHOLD : ℕ := 5

/-- The first lockout. -/
def LOCKOUT_BASE_MS : ℤ := 60 * 1000

/-- The longest lockout. -/
def MAX_LOCKOUT_MS : ℤ := 60 * 60 * 1000

namespace MfaMethod

/-- Enrolls a new method; `id` is what `createId` returns. -/
def create (id userId : String) (type : MfaMethodType) (secret : Option String) (now : ℤ) :
    MfaMethod where
  id := id
  userId := userId
  type := type
  status := .pending
  secret := secret
  lastUsedAt := none
  createdAt := now
  updatedAt := now
  failedAttempts := 0
  lockedUntil := none
  lastUsedStep := none

/-- Enrolls a pending TOTP method. -/
def createPendingTotp (id userId secret : String) (now : ℤ) : MfaMethod :=
  create id userId .totp (some secret) now

/-- Enrolls a method that is already active. -/
def createActive (id userId : String) (type : MfaMethodType) (now : ℤ) : MfaMethod :=
  { create id userId type none now with status := .active }

/-- Moves a method to `active`, clearing any lockout. -/
def activate (method : MfaMethod) (now : ℤ) : Except ThrownError MfaMethod :=
  if method.status = .active then .error { message := "Method is already active." }
  else .ok { method with
    status := .active
    failedAttempts := 0
    lockedUntil := none
    updatedAt := now }

/-- Disables an enrolled method. -/
def disable (method : MfaMethod) (now : ℤ) : Except ThrownError MfaMethod :=
  if method.status = .disabled then .error { message := "Method is already disabled." }
  else .ok { method with status := .disabled, updatedAt := now }

/-- Replaces the stored secret. -/
def updateSecret (method : MfaMethod) (secret : String) (now : ℤ) : MfaMethod :=
  { method with secret := some secret, updatedAt := now }

/-- Clears the stored secret. -/
def clearSecret (method : MfaMethod) (now : ℤ) : MfaMethod :=
  { method with secret := none, updatedAt := now }

/-- Whether the method is rate-limited. -/
def isLockedAt (method : MfaMethod) (now : ℤ) : Bool :=
  method.lockedUntil.any fun lockedUntil => decide (now < lockedUntil)

/-- Records a failed challenge; from the threshold on this locks the method, and below it clears
any lock. -/
def recordFailedAttempt (method : MfaMethod) (now : ℤ) : MfaMethod :=
  let attempts := method.failedAttempts + 1
  let exponent : ℤ := attempts - LOCKOUT_THRESHOLD
  { method with
    failedAttempts := attempts
    lockedUntil :=
      if 0 ≤ exponent then
        some (now + min (LOCKOUT_BASE_MS * 2 ^ exponent.toNat) MAX_LOCKOUT_MS)
      else none
    updatedAt := now }

/-- Records a successful challenge, clearing the failures and the lockout. -/
def recordUse (method : MfaMethod) (now : ℤ) : Except ThrownError MfaMethod :=
  if method.status = .active then
    .ok { method with
      lastUsedAt := some now
      failedAttempts := 0
      lockedUntil := none
      updatedAt := now }
  else .error { message := "Only active methods can be used for verification." }

/-- Records a successful challenge at a time step, which must come after the last one. -/
def recordTotpUse (method : MfaMethod) (matchedStep now : ℤ) : Except ThrownError MfaMethod :=
  if method.status ≠ .active then
    .error { message := "Only active methods can be used for verification." }
  else if method.lastUsedStep.any fun lastUsedStep => decide (matchedStep ≤ lastUsedStep) then
    .error { message := "Replay detected: step has already been consumed." }
  else (method.recordUse now).map fun used => { used with lastUsedStep := some matchedStep }

section

variable {method : MfaMethod} {matchedStep now : ℤ}

@[simp] theorem id_recordFailedAttempt : (method.recordFailedAttempt now).id = method.id := rfl

@[simp] theorem status_recordFailedAttempt :
    (method.recordFailedAttempt now).status = method.status := rfl

@[simp] theorem failedAttempts_recordFailedAttempt :
    (method.recordFailedAttempt now).failedAttempts = method.failedAttempts + 1 := rfl

@[simp] theorem lastUsedStep_recordFailedAttempt :
    (method.recordFailedAttempt now).lastUsedStep = method.lastUsedStep := rfl

/-- The step comes after the last one that was taken. -/
def IsFresh (method : MfaMethod) (matchedStep : ℤ) : Prop :=
  ∀ lastUsedStep, method.lastUsedStep = some lastUsedStep → lastUsedStep < matchedStep

instance : Decidable (method.IsFresh matchedStep) :=
  match h : method.lastUsedStep with
  | none => isTrue fun lastUsedStep hstep => by rw [h] at hstep; exact nomatch hstep
  | some lastUsedStep =>
    decidable_of_iff (lastUsedStep < matchedStep) (by simp [IsFresh, h])

/-- An active method takes a fresh step, and is then clear of failures. -/
theorem recordTotpUse_of_isFresh (hactive : method.status = .active)
    (hfresh : method.IsFresh matchedStep) :
    method.recordTotpUse matchedStep now = .ok { method with
      lastUsedAt := some now
      failedAttempts := 0
      lockedUntil := none
      updatedAt := now
      lastUsedStep := some matchedStep } := by
  have hnew : method.lastUsedStep.any
      (fun lastUsedStep => decide (matchedStep ≤ lastUsedStep)) = false := by
    rw [Option.any_eq_false]
    intro lastUsedStep hstep
    simpa using hfresh lastUsedStep hstep
  rw [recordTotpUse, if_neg (not_not.mpr hactive), hnew, if_neg Bool.false_ne_true, recordUse,
    if_pos hactive]
  rfl

/-- An active method takes no step twice, and none that came before. -/
theorem recordTotpUse_of_not_isFresh (hactive : method.status = .active)
    (hold : ¬method.IsFresh matchedStep) :
    method.recordTotpUse matchedStep now =
      .error { message := "Replay detected: step has already been consumed." } := by
  have hreplay : method.lastUsedStep.any
      (fun lastUsedStep => decide (matchedStep ≤ lastUsedStep)) = true := by
    rw [Option.any_eq_true]
    by_contra hnone
    refine hold fun lastUsedStep hstep => ?_
    by_contra hle
    exact hnone ⟨lastUsedStep, hstep, decide_eq_true (not_lt.mp hle)⟩
  rw [recordTotpUse, if_neg (not_not.mpr hactive), if_pos hreplay]

end

end MfaMethod

end Verixa.Mfa
