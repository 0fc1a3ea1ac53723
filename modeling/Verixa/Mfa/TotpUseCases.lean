import Verixa.Collections.KeyedMap
import Verixa.Concurrency.Program
import Verixa.Encoding.PlainText
import Verixa.Mfa.MfaMethod
import Verixa.SharedKernel.Record

/-!
# Accepting TOTP codes

The two use cases that accept a code: `ConfirmTotpEnrollment` for a pending method, which becomes
active, and `VerifyTotpChallenge` for an active one, which remembers the step of the code.  Both
find the method, check it, have the code verified, and save the changed method; they differ in what
they expect of the method and in what follows a code that matches.

The method is changed in place before it is saved.  So what handles a failed save goes on with the
changed method.
-/

namespace Verixa.Mfa

open Concurrency Encoding

/-! ## Calls -/

/-- A call made by the use cases. -/
inductive MethodRequest where
  | now
  | findById (id : String)
  | verify (secret code : String) (driftWindow : Option ℕ)
  | save (method : MfaMethod)
  deriving DecidableEq

/-- What a call is answered with: the step that matches, if any, or what the algorithm throws; what
a save throws, if it does. -/
def MethodRequest.Answer : MethodRequest → Type
  | .now => ℤ
  | .findById _ => Option MfaMethod
  | .verify _ _ _ => Except ThrownError (Option ℤ)
  | .save _ => Option ThrownError

/-- A program over these calls. -/
abbrev MethodProgram := Program MethodRequest MethodRequest.Answer

namespace MethodCalls

/-- `new Date()`. -/
def now : MethodProgram ℤ := Program.perform MethodRequest.now

/-- `mfaMethodRepository.findById`. -/
def findById (id : String) : MethodProgram (Option MfaMethod) :=
  Program.perform (MethodRequest.findById id)

/-- `totpAlgorithm.verify`. -/
def verify (secret code : String) (driftWindow : Option ℕ) :
    MethodProgram (Except ThrownError (Option ℤ)) :=
  Program.perform (MethodRequest.verify secret code driftWindow)

/-- `mfaMethodRepository.save`. -/
def save (method : MfaMethod) : MethodProgram (Option ThrownError) :=
  Program.perform (MethodRequest.save method)

end MethodCalls

/-! ## Checking a code -/

/-- The method and the code. -/
structure TotpCommand where
  methodId : String
  code : String
  deriving DecidableEq

/-- What a use case fails with. -/
inductive TotpError where
  | error (message : String)
  | accountLocked (error : AccountLockedError)
  | validation (error : ValidationError)
  deriving DecidableEq

/-- What a use case returns, or throws. -/
abbrev TotpResult := Except ThrownError (Except TotpError Unit)

/-- The code was taken before. -/
def codeAlreadyUsed : TotpError := .error "Code has already been used."

/-- What one use case expects of the method, and what it does with a code that matches. -/
structure TotpCheck where
  status : MfaMethodStatus
  statusMessage : String
  lockedMessage : String
  driftWindow : Option ℕ
  accept : MfaMethod → ℤ → ℤ → MethodProgram TotpResult

/-- Records a failed attempt, and reports why. -/
def recordFailure (method : MfaMethod) (now : ℤ) (error : TotpError) :
    MethodProgram TotpResult := do
  match ← MethodCalls.save (method.recordFailedAttempt now) with
  | some thrown => return .error thrown
  | none => return .ok (.error error)

/-- What is done with a code for a method whose secret is known. -/
def TotpCheck.verifyCode (check : TotpCheck) (method : MfaMethod) (now : ℤ)
    (secret code : String) : MethodProgram TotpResult := do
  match ← MethodCalls.verify secret code check.driftWindow with
  | .error thrown => return .error thrown
  | .ok none => recordFailure method now (.error "Invalid TOTP code.")
  | .ok (some matchedStep) => check.accept method matchedStep now

/-- The secret of a method; the empty one counts as missing. -/
def presentSecret (method : MfaMethod) : Option String :=
  method.secret.filter fun secret => decide (secret ≠ "")

/-- The part that the use cases share. -/
def TotpCheck.execute (check : TotpCheck) (command : TotpCommand) : MethodProgram TotpResult := do
  if command.code = "" ∨ utf16Length command.code ≠ 6 then
    return .ok (.error (.validation ⟨"TOTP code must be 6 digits.", []⟩))
  else
    match ← MethodCalls.findById command.methodId with
    | none => return .ok (.error (.error "MFA method not found."))
    | some method =>
      if method.status ≠ check.status then return .ok (.error (.error check.statusMessage))
      else do
        let now ← MethodCalls.now
        if method.isLockedAt now then
          return .ok (.error (.accountLocked ⟨check.lockedMessage⟩))
        else
          match presentSecret method with
          | none => return .ok (.error (.error "MFA method is missing its secret."))
          | some secret => check.verifyCode method now secret command.code

/-! ## The use cases -/

namespace ConfirmTotpEnrollment

/-- Activates the method. -/
def accept (method : MfaMethod) (_matchedStep now : ℤ) : MethodProgram TotpResult :=
  match method.activate now with
  | .error thrown => return .error thrown
  | .ok activatedMethod => do
    match ← MethodCalls.save activatedMethod with
    | some thrown => return .error thrown
    | none => return .ok (.ok ())

/-- What confirming an enrollment expects and does. -/
def check : TotpCheck where
  status := .pending
  statusMessage := "Method is not in a pending state."
  lockedMessage := "Confirmation attempts are rate-limited."
  driftWindow := none
  accept := accept

/-- Verifies a code against the secret of a pending method. -/
def execute (command : TotpCommand) : MethodProgram TotpResult := check.execute command

end ConfirmTotpEnrollment

namespace VerifyTotpChallenge

/-- Records the use of a step.  What is caught may come from the method or from the save; after a
failed save the method has been changed already. -/
def accept (method : MfaMethod) (matchedStep now : ℤ) : MethodProgram TotpResult :=
  match method.recordTotpUse matchedStep now with
  | .error _ => recordFailure method now codeAlreadyUsed
  | .ok verifiedMethod => do
    match ← MethodCalls.save verifiedMethod with
    | none => return .ok (.ok ())
    | some _ => recordFailure verifiedMethod now codeAlreadyUsed

/-- What a challenge expects and does. -/
def check : TotpCheck where
  status := .active
  statusMessage := "Method is not active."
  lockedMessage := "Authentication attempts are rate-limited."
  driftWindow := some 1
  accept := accept

/-- Verifies a code against an active method. -/
def execute (command : TotpCommand) : MethodProgram TotpResult := check.execute command

end VerifyTotpChallenge

end Verixa.Mfa
