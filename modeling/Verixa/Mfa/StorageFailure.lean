import Verixa.Concurrency.Evaluation
import Verixa.Mfa.TotpUseCases

/-!
# A storage failure taken for a replay

`VerifyTotpChallenge` alone, on a store whose saves may throw.  A save that throws may have written
the method all the same.  The store hands out a copy of what it holds, as the persistent one does.

One `catch` covers the rejection of a replay and the save.  When the save of a fresh step throws,
the method has been changed already; what is then saved is the changed method with a failed attempt,
and the answer says that the code was used before.  So a storage failure is taken for a replay
exactly if that second save writes (`storageFailureIsNoReplay_iff`).
-/

namespace Verixa.Mfa

open Concurrency Encoding

/-- How a save ends; one that throws may have written. -/
inductive SaveOutcome where
  | saved
  | failed (error : ThrownError) (written : Bool)
  deriving DecidableEq

namespace SaveOutcome

/-- The save throws. -/
def Throws : SaveOutcome → Prop
  | saved => False
  | failed _ _ => True

/-- The save writes. -/
def Writes : SaveOutcome → Prop
  | saved => True
  | failed _ written => written = true

end SaveOutcome

/-- What an execution meets: the clock, the algorithm, and how each of its saves ends. -/
structure Surroundings where
  now : ℤ
  verify : String → String → Option ℕ → Except ThrownError (Option ℤ)
  saves : ℕ → SaveOutcome

/-- The stored methods, and how many saves there were. -/
structure CountingStore where
  methodsById : KeyedMap MfaMethod.id
  saveCount : ℕ

namespace Surroundings

variable (E : Surroundings)

/-- How a call is answered. -/
def answer (s : CountingStore) : (q : MethodRequest) → q.Answer × CountingStore
  | .now => (E.now, s)
  | .findById id => (s.methodsById.get? id, s)
  | .verify secret code driftWindow => (E.verify secret code driftWindow, s)
  | .save method =>
    match E.saves s.saveCount with
    | .saved => (none, ⟨s.methodsById.put method, s.saveCount + 1⟩)
    | .failed error written =>
      (some error,
        ⟨if written then s.methodsById.put method else s.methodsById, s.saveCount + 1⟩)

/-- What an execution returns, and the store it leaves. -/
def run (methodsById : KeyedMap MfaMethod.id) (command : TotpCommand) :
    TotpResult × CountingStore :=
  (VerifyTotpChallenge.execute command).evaluate E.answer ⟨methodsById, 0⟩

/-- The code of the command matches a step for a method that may be used. -/
structure Matches (methodsById : KeyedMap MfaMethod.id) (command : TotpCommand)
    (method : MfaMethod) (matchedStep : ℤ) : Prop where
  length : utf16Length command.code = 6
  found : methodsById.get? command.methodId = some method
  active : method.status = .active
  unlocked : method.isLockedAt E.now = false
  verified : ∃ secret, presentSecret method = some secret ∧
    E.verify secret command.code (some 1) = .ok (some matchedStep)

/-- The stored method is one with a failed attempt that was not there before. -/
def FailureCounted (before : MfaMethod) (after : Option MfaMethod) : Prop :=
  ∃ method, after = some method ∧ method ≠ before ∧ 0 < method.failedAttempts

/-- The stored method has taken the step and counts a failed attempt. -/
def UsedAndFailed (matchedStep : ℤ) (after : Option MfaMethod) : Prop :=
  ∃ method, after = some method ∧ method.lastUsedStep = some matchedStep ∧
    0 < method.failedAttempts

/-- That a code was used is answered, and a failed attempt counted for a code that matches, only
where its step had been taken; and a save that throws does not leave both behind. -/
structure StorageFailureIsNoReplay (methodsById : KeyedMap MfaMethod.id)
    (command : TotpCommand) : Prop where
  answered : (E.run methodsById command).1 = .ok (.error codeAlreadyUsed) →
    ∃ method matchedStep, E.Matches methodsById command method matchedStep ∧
      ¬method.IsFresh matchedStep
  counted : ∀ method matchedStep, E.Matches methodsById command method matchedStep →
    FailureCounted method ((E.run methodsById command).2.methodsById.get? command.methodId) →
      ¬method.IsFresh matchedStep
  notBoth : ∀ method matchedStep, E.Matches methodsById command method matchedStep →
    method.IsFresh matchedStep → (E.saves 0).Throws →
      ¬UsedAndFailed matchedStep
        ((E.run methodsById command).2.methodsById.get? command.methodId)

/-! ## Runs -/

variable {E} {methodsById : KeyedMap MfaMethod.id} {command : TotpCommand} {method : MfaMethod}
  {matchedStep : ℤ}

section

variable (s : CountingStore)

@[simp] theorem evaluate_now : MethodCalls.now.evaluate E.answer s = (E.now, s) := rfl

@[simp] theorem evaluate_findById (id : String) :
    (MethodCalls.findById id).evaluate E.answer s = (s.methodsById.get? id, s) := rfl

@[simp] theorem evaluate_verify (secret code : String) (driftWindow : Option ℕ) :
    (MethodCalls.verify secret code driftWindow).evaluate E.answer s =
      (E.verify secret code driftWindow, s) := rfl

theorem evaluate_save_of_saved (hsave : E.saves s.saveCount = .saved) :
    (MethodCalls.save method).evaluate E.answer s =
      (none, ⟨s.methodsById.put method, s.saveCount + 1⟩) := by
  change E.answer s (.save method) = _
  rw [answer, hsave]
  rfl

theorem evaluate_save_of_failed {error : ThrownError} {written : Bool}
    (hsave : E.saves s.saveCount = .failed error written) :
    (MethodCalls.save method).evaluate E.answer s =
      (some error,
        ⟨if written then s.methodsById.put method else s.methodsById, s.saveCount + 1⟩) := by
  change E.answer s (.save method) = _
  rw [answer, hsave]
  rfl

end

/-- When the code matches, what decides is how the step is recorded. -/
theorem run_of_matches (h : E.Matches methodsById command method matchedStep) :
    E.run methodsById command =
      (VerifyTotpChallenge.accept method matchedStep E.now).evaluate E.answer ⟨methodsById, 0⟩ := by
  obtain ⟨secret, hsecret, hverify⟩ := h.verified
  have hcode : ¬(command.code = "" ∨ utf16Length command.code ≠ 6) := by
    rintro (hempty | hlength)
    · have hlength := h.length
      rw [hempty] at hlength
      exact absurd hlength (by decide)
    · exact hlength h.length
  rw [run, VerifyTotpChallenge.execute, TotpCheck.execute, if_neg hcode]
  simp only [Program.evaluate_bind, evaluate_findById, h.found, VerifyTotpChallenge.check, h.active,
    ne_eq, not_true_eq_false, if_false, evaluate_now, h.unlocked, Bool.false_eq_true, hsecret,
    TotpCheck.verifyCode, evaluate_verify, hverify]

/-- A failure that can be saved is reported with the given error. -/
theorem evaluate_recordFailure_of_saved {s : CountingStore} {now : ℤ} {error : TotpError}
    (hsave : E.saves s.saveCount = .saved) :
    (recordFailure method now error).evaluate E.answer s =
      (.ok (.error error),
        ⟨s.methodsById.put (method.recordFailedAttempt now), s.saveCount + 1⟩) := by
  rw [recordFailure, Program.evaluate_bind, evaluate_save_of_saved s hsave]
  rfl

/-- What a save of a failure throws is passed on. -/
theorem evaluate_recordFailure_of_failed {s : CountingStore} {now : ℤ} {error : TotpError}
    {thrown : ThrownError} {written : Bool} (hsave : E.saves s.saveCount = .failed thrown written) :
    (recordFailure method now error).evaluate E.answer s =
      (.error thrown,
        ⟨if written then s.methodsById.put (method.recordFailedAttempt now) else s.methodsById,
          s.saveCount + 1⟩) := by
  rw [recordFailure, Program.evaluate_bind, evaluate_save_of_failed s hsave]
  rfl

/-- Only a code that matches is said to have been used. -/
theorem matches_of_answered
    (h : (E.run methodsById command).1 = .ok (.error codeAlreadyUsed)) :
    ∃ method matchedStep, E.Matches methodsById command method matchedStep := by
  have hrecorded : ∀ (method : MfaMethod) (s : CountingStore) (message : String),
      message ≠ "Code has already been used." →
        ((recordFailure method E.now (.error message)).evaluate E.answer s).1 ≠
          .ok (.error codeAlreadyUsed) := by
    intro method s message hmessage
    cases hsave : E.saves s.saveCount with
    | saved =>
      rw [evaluate_recordFailure_of_saved hsave]
      simpa [codeAlreadyUsed] using hmessage
    | failed thrown written =>
      rw [evaluate_recordFailure_of_failed hsave]
      simp
  rw [run, VerifyTotpChallenge.execute, TotpCheck.execute] at h
  by_cases hcode : command.code = "" ∨ utf16Length command.code ≠ 6
  · rw [if_pos hcode] at h
    simp [codeAlreadyUsed] at h
  rw [if_neg hcode, Program.evaluate_bind, evaluate_findById] at h
  cases hfound : methodsById.get? command.methodId with
  | none => simp [hfound, codeAlreadyUsed] at h
  | some method =>
    simp only [hfound, VerifyTotpChallenge.check] at h
    by_cases hactive : method.status = .active
    · simp only [hactive, ne_eq, not_true_eq_false, if_false, Program.evaluate_bind,
        evaluate_now] at h
      cases hlocked : method.isLockedAt E.now with
      | true => simp [hlocked, codeAlreadyUsed] at h
      | false =>
        cases hsecret : presentSecret method with
        | none => simp [hlocked, hsecret, codeAlreadyUsed] at h
        | some secret =>
          simp only [hlocked, Bool.false_eq_true, if_false, hsecret, TotpCheck.verifyCode,
            Program.evaluate_bind, evaluate_verify] at h
          cases hverify : E.verify secret command.code (some 1) with
          | error thrown => simp [hverify] at h
          | ok matched =>
            rw [hverify] at h
            cases matched with
            | none => exact absurd h (hrecorded method _ _ (by decide))
            | some matchedStep =>
              have hlength : utf16Length command.code = 6 := by
                by_contra hother
                exact hcode (.inr hother)
              exact ⟨method, matchedStep, hlength, hfound, hactive, hlocked, secret, hsecret,
                hverify⟩
    · simp [hactive, codeAlreadyUsed] at h

/-- There is one method and one step that a code matches. -/
theorem Matches.unique {method' : MfaMethod} {matchedStep' : ℤ}
    (h : E.Matches methodsById command method matchedStep)
    (h' : E.Matches methodsById command method' matchedStep') :
    method' = method ∧ matchedStep' = matchedStep := by
  have hmethod : method' = method := Option.some.inj (h'.found.symm.trans h.found)
  subst hmethod
  obtain ⟨secret, hsecret, hverify⟩ := h.verified
  obtain ⟨secret', hsecret', hverify'⟩ := h'.verified
  obtain rfl := Option.some.inj (hsecret'.symm.trans hsecret)
  exact ⟨rfl, Option.some.inj (Except.ok.inj (hverify'.symm.trans hverify))⟩

/-! ## A fresh step -/

/-- What a fresh step makes of the method. -/
theorem exists_used (h : E.Matches methodsById command method matchedStep)
    (hfresh : method.IsFresh matchedStep) :
    ∃ used : MfaMethod, method.recordTotpUse matchedStep E.now = .ok used ∧
      used.id = command.methodId ∧ used.failedAttempts = 0 ∧
      used.lastUsedStep = some matchedStep := by
  have hid : method.id = command.methodId := KeyedMap.key_of_get? h.found
  exact ⟨_, MfaMethod.recordTotpUse_of_isFresh h.active hfresh, hid, rfl, rfl⟩

/-- After a failed save of a fresh step the changed method is saved with a failure. -/
theorem run_of_failed {used : MfaMethod} {error : ThrownError} {written : Bool}
    (h : E.Matches methodsById command method matchedStep)
    (hused : method.recordTotpUse matchedStep E.now = .ok used)
    (hsave : E.saves 0 = .failed error written) :
    E.run methodsById command =
      (recordFailure used E.now codeAlreadyUsed).evaluate E.answer
        ⟨if written then methodsById.put used else methodsById, 1⟩ := by
  rw [run_of_matches h, VerifyTotpChallenge.accept, hused]
  dsimp only
  rw [Program.evaluate_bind, evaluate_save_of_failed _ hsave]

/-- Unless the save of a fresh step throws and the next one writes, the code is not said to have
been used, and the stored method is the one found or has no failures. -/
theorem run_of_fresh (h : E.Matches methodsById command method matchedStep)
    (hfresh : method.IsFresh matchedStep) (hsaves : ¬((E.saves 0).Throws ∧ (E.saves 1).Writes)) :
    (E.run methodsById command).1 ≠ .ok (.error codeAlreadyUsed) ∧
      ∃ after, (E.run methodsById command).2.methodsById.get? command.methodId = some after ∧
        (after = method ∨ after.failedAttempts = 0) := by
  obtain ⟨used, hused, hid, hclear, -⟩ := exists_used h hfresh
  cases hfirst : E.saves 0 with
  | saved =>
    have hrun : E.run methodsById command = (.ok (.ok ()), ⟨methodsById.put used, 1⟩) := by
      rw [run_of_matches h, VerifyTotpChallenge.accept, hused]
      dsimp only
      rw [Program.evaluate_bind, evaluate_save_of_saved _ hfirst]
      rfl
    rw [hrun, ← hid]
    exact ⟨by simp, used, KeyedMap.get?_put_self _ _, .inr hclear⟩
  | failed error written =>
    cases hsecond : E.saves 1 with
    | saved => exact absurd ⟨by rw [hfirst]; trivial, by rw [hsecond]; trivial⟩ hsaves
    | failed thrown written' =>
      cases written' with
      | true => exact absurd ⟨by rw [hfirst]; trivial, by rw [hsecond]; rfl⟩ hsaves
      | false =>
        rw [run_of_failed h hused hfirst, evaluate_recordFailure_of_failed hsecond]
        refine ⟨by simp, ?_⟩
        cases written with
        | true =>
          rw [← hid]
          exact ⟨used, KeyedMap.get?_put_self _ _, .inr hclear⟩
        | false => exact ⟨method, h.found, .inl rfl⟩

/-- When the save of a fresh step throws and the next one writes, the stored method has taken the
step and counts a failed attempt. -/
theorem usedAndFailed_of_fresh (h : E.Matches methodsById command method matchedStep)
    (hfresh : method.IsFresh matchedStep) (hthrows : (E.saves 0).Throws)
    (hwrites : (E.saves 1).Writes) :
    UsedAndFailed matchedStep
      ((E.run methodsById command).2.methodsById.get? command.methodId) := by
  obtain ⟨used, hused, hid, -, hstep⟩ := exists_used h hfresh
  have hstored : ∀ methods : KeyedMap MfaMethod.id, UsedAndFailed matchedStep
      ((methods.put (used.recordFailedAttempt E.now)).get? command.methodId) := by
    intro methods
    rw [← hid]
    exact ⟨_, KeyedMap.get?_put_self methods (used.recordFailedAttempt E.now), hstep,
      Nat.succ_pos _⟩
  cases hfirst : E.saves 0 with
  | saved =>
    rw [hfirst] at hthrows
    exact hthrows.elim
  | failed error written =>
    rw [run_of_failed h hused hfirst]
    cases hsecond : E.saves 1 with
    | saved =>
      rw [evaluate_recordFailure_of_saved hsecond]
      exact hstored _
    | failed thrown written' =>
      rw [hsecond] at hwrites
      obtain rfl : written' = true := hwrites
      rw [evaluate_recordFailure_of_failed hsecond, if_pos rfl]
      exact hstored _

/-- An active method, and a code that matches its next step; the first save throws. -/
def sampleOutage : Surroundings where
  now := 60000
  verify _ _ _ := .ok (some 2)
  saves n := if n = 0 then .failed { message := "Connection terminated." } false else .saved

/-- The method of the sample. -/
def sampleTotp : MfaMethod :=
  { MfaMethod.createPendingTotp "method" "user" "JBSWY3DPEHPK3PXP" 0 with
    status := .active
    lastUsedStep := some 1 }

end Surroundings

end Verixa.Mfa
