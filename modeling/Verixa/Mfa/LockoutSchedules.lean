import Verixa.Credentials.Credential
import Verixa.Mfa.MfaMethod
import Verixa.SharedKernel.BruteForce

/-!
# The three lockout schedules

How long a lock lasts is computed in three places: for the keys of the brute-force policy, for
credentials, and for second factors.  The first two have a policy and cut the exponent off at 64;
the third has its numbers built in, and no cut-off.

The first two compute the same for every policy (`exactLockDurationMs_eq`), and the third what the
default policy of credentials says.  So over any failures in a row a second factor and a credential
are locked alike, and the end of the lock only moves on (`lockout_schedules_agree`).
-/

namespace Verixa

/-! ## Credentials, with any numbers -/

/-- A lockout policy whose durations and factor need not be whole. -/
structure ExactLockoutPolicy where
  threshold : ℕ
  baseDurationMs : ℚ
  backoffFactor : ℚ
  maxDurationMs : ℚ

/-- `lockDurationMs` of credentials, for such a policy. -/
def exactLockDurationMs (failedAttempts : ℕ) (policy : ExactLockoutPolicy) : ℚ :=
  if failedAttempts < policy.threshold then 0
  else
    let stepsPastThreshold := failedAttempts - policy.threshold
    let uncapped :=
      if 64 < stepsPastThreshold then policy.maxDurationMs
      else policy.baseDurationMs * policy.backoffFactor ^ stepsPastThreshold
    min uncapped policy.maxDurationMs

namespace ExactLockoutPolicy

/-- A policy of whole numbers. -/
def ofPolicy (policy : LockoutPolicy) : ExactLockoutPolicy where
  threshold := policy.threshold
  baseDurationMs := policy.baseDurationMs
  backoffFactor := policy.backoffFactor
  maxDurationMs := policy.maxDurationMs

/-- The same numbers for the brute-force policy. -/
def thresholds (policy : ExactLockoutPolicy) : BruteForce.BruteForceThresholds where
  threshold := policy.threshold
  baseDurationMs := policy.baseDurationMs
  backoffFactor := policy.backoffFactor
  maxDurationMs := policy.maxDurationMs

end ExactLockoutPolicy

/-- The two schedules with a policy are one. -/
theorem exactLockDurationMs_eq (failedAttempts : ℕ) (policy : ExactLockoutPolicy) :
    exactLockDurationMs failedAttempts policy =
      BruteForce.lockDurationMs failedAttempts policy.thresholds := rfl

/-- For whole numbers this is how long a credential is locked. -/
theorem exactLockDurationMs_ofPolicy (failedAttempts : ℕ) (policy : LockoutPolicy) :
    exactLockDurationMs failedAttempts (.ofPolicy policy) =
      (lockDurationMs failedAttempts policy : ℚ) := by
  rw [exactLockDurationMs_eq]
  exact BruteForce.lockDurationMs_ofCurve failedAttempts policy

/-- No lock lasts longer than the longest. -/
theorem exactLockDurationMs_le {policy : ExactLockoutPolicy}
    (h : policy.thresholds.Sensible) (failedAttempts : ℕ) :
    exactLockDurationMs failedAttempts policy ≤ policy.maxDurationMs := by
  rw [exactLockDurationMs]
  split
  · exact h.base.le.trans h.max
  · exact min_le_right _ _

/-! ## Second factors and the default policy -/

/-- More failures do not lock a credential for a shorter time. -/
theorem lockDurationMs_default_mono {m n : ℕ} (h : m ≤ n) :
    lockDurationMs m DEFAULT_LOCKOUT_POLICY ≤ lockDurationMs n DEFAULT_LOCKOUT_POLICY := by
  have hsensible : (ExactLockoutPolicy.ofPolicy DEFAULT_LOCKOUT_POLICY).thresholds.Sensible := by
    constructor <;> norm_num [ExactLockoutPolicy.ofPolicy, ExactLockoutPolicy.thresholds,
      DEFAULT_LOCKOUT_POLICY]
  have hmono := BruteForce.lockDurationMs_mono hsensible h
  rw [← exactLockDurationMs_eq, ← exactLockDurationMs_eq, exactLockDurationMs_ofPolicy,
    exactLockDurationMs_ofPolicy] at hmono
  exact_mod_cast hmono

/-- Below the threshold nothing is locked. -/
theorem lockDurationMs_default_of_lt {n : ℕ} (h : n < 5) :
    lockDurationMs n DEFAULT_LOCKOUT_POLICY = 0 :=
  if_pos h

/-- From the threshold on the duration doubles, up to an hour; the cut-off changes nothing, as the
hour is reached before it. -/
theorem lockDurationMs_default {n : ℕ} (h : 5 ≤ n) :
    lockDurationMs n DEFAULT_LOCKOUT_POLICY = min (60000 * 2 ^ (n - 5)) 3600000 := by
  change (if n < 5 then (0 : ℤ) else min (if 64 < n - 5 then 3600000 else 60000 * 2 ^ (n - 5))
    3600000) = _
  rw [if_neg (not_lt.mpr h)]
  split
  · rename_i hcut
    have hpow : (2 : ℤ) ^ 6 ≤ 2 ^ (n - 5) := pow_le_pow_right₀ (by norm_num) (by omega)
    rw [min_self, min_eq_right (by linarith)]
  · rfl

/-- A second factor is locked as a credential with as many failures. -/
theorem Mfa.MfaMethod.lockedUntil_recordFailedAttempt (method : Mfa.MfaMethod) (now : ℤ) :
    (method.recordFailedAttempt now).lockedUntil =
      if lockDurationMs (method.failedAttempts + 1) DEFAULT_LOCKOUT_POLICY = 0 then none
      else some (now + lockDurationMs (method.failedAttempts + 1) DEFAULT_LOCKOUT_POLICY) := by
  rcases lt_or_ge (method.failedAttempts + 1) 5 with hfew | hmany
  · rw [lockDurationMs_default_of_lt hfew, if_pos rfl]
    refine if_neg ?_
    dsimp only [Mfa.LOCKOUT_THRESHOLD]
    omega
  · have hexponent : (((method.failedAttempts + 1 : ℕ) : ℤ) - Mfa.LOCKOUT_THRESHOLD).toNat =
        method.failedAttempts + 1 - 5 := by
      dsimp only [Mfa.LOCKOUT_THRESHOLD]
      omega
    have hpos : (0 : ℤ) < min (60000 * 2 ^ (method.failedAttempts + 1 - 5)) 3600000 :=
      lt_min (by positivity) (by norm_num)
    rw [lockDurationMs_default hmany, if_neg hpos.ne']
    refine (if_pos ?_).trans ?_
    · dsimp only [Mfa.LOCKOUT_THRESHOLD]
      omega
    · rw [hexponent]
      rfl

/-! ## Failures in a row -/

/-- A second factor and a credential that have seen as many failures and are locked alike; there is
a lock only from the threshold on, and it ends no later than a lock that begins at `last`. -/
structure LockedAlike (last : Option ℤ) (method : Mfa.MfaMethod) (credential : Credential) :
    Prop where
  failedAttempts : method.failedAttempts = credential.failedAttempts
  lockedUntil : method.lockedUntil = credential.lockedUntil
  within : ∀ lockedUntil, credential.lockedUntil = some lockedUntil →
    5 ≤ credential.failedAttempts ∧ ∃ time ∈ last,
      lockedUntil ≤ time + lockDurationMs credential.failedAttempts DEFAULT_LOCKOUT_POLICY

section

variable {last : Option ℤ} {method : Mfa.MfaMethod} {credential : Credential} {now : ℤ}

/-- A failure at the same time locks both alike. -/
theorem LockedAlike.recordFailedAttempt (h : LockedAlike last method credential) :
    LockedAlike (some now) (method.recordFailedAttempt now)
      (credential.recordFailedAttempt DEFAULT_LOCKOUT_POLICY now) where
  failedAttempts := congrArg (· + 1) h.failedAttempts
  lockedUntil := by
    rw [method.lockedUntil_recordFailedAttempt now, h.failedAttempts,
      Credential.recordFailedAttempt]
    dsimp only
    split
    · rename_i hzero
      -- without a duration the threshold is not reached, and so there was no lock
      cases hlock : credential.lockedUntil with
      | none => rfl
      | some lockedUntil =>
        have hmany := (h.within lockedUntil hlock).1
        have hmono := lockDurationMs_default_mono (show 5 ≤ credential.failedAttempts + 1 by omega)
        rw [hzero] at hmono
        exact absurd hmono (by decide)
    · rfl
  within := by
    intro lockedUntil hlock
    rw [Credential.recordFailedAttempt] at hlock ⊢
    dsimp only at hlock ⊢
    split at hlock
    · rename_i hzero
      have hmany := (h.within lockedUntil hlock).1
      have hmono := lockDurationMs_default_mono (show 5 ≤ credential.failedAttempts + 1 by omega)
      rw [hzero] at hmono
      exact absurd hmono (by decide)
    · rename_i hduration
      refine ⟨?_, now, rfl, (Option.some.inj hlock).ge⟩
      by_contra hfew
      exact hduration (lockDurationMs_default_of_lt (not_le.mp hfew))

/-- A failure after the last one does not move the end of a lock back. -/
theorem LockedAlike.le_recordFailedAttempt (h : LockedAlike last method credential)
    (hlast : ∀ time ∈ last, time ≤ now) {lockedUntil : ℤ}
    (hlock : method.lockedUntil = some lockedUntil) :
    ∃ later, (method.recordFailedAttempt now).lockedUntil = some later ∧ lockedUntil ≤ later := by
  rw [h.lockedUntil] at hlock
  obtain ⟨hmany, time, htime, hend⟩ := h.within lockedUntil hlock
  have hmono := lockDurationMs_default_mono (Nat.le_succ credential.failedAttempts)
  have hlong := lockDurationMs_default_mono (show 5 ≤ credential.failedAttempts + 1 by omega)
  have hfirst : lockDurationMs 5 DEFAULT_LOCKOUT_POLICY = 60000 := by decide
  rw [hfirst] at hlong
  have hle := hlast time htime
  rw [method.lockedUntil_recordFailedAttempt now, h.failedAttempts, if_neg (by omega)]
  exact ⟨_, rfl, by dsimp only [Nat.succ_eq_add_one] at hmono; omega⟩

end

/-- A second factor after failures at these times. -/
def Mfa.MfaMethod.afterFailures (method : Mfa.MfaMethod) (times : List ℤ) : Mfa.MfaMethod :=
  times.foldl Mfa.MfaMethod.recordFailedAttempt method

/-- A credential after failures at these times. -/
def Credential.afterFailures (credential : Credential) (policy : LockoutPolicy) (times : List ℤ) :
    Credential :=
  times.foldl (fun credential now => credential.recordFailedAttempt policy now) credential

section

variable {method : Mfa.MfaMethod} {credential : Credential}

/-- Nothing is left of earlier failures. -/
structure BothClear (method : Mfa.MfaMethod) (credential : Credential) : Prop where
  methodFailures : method.failedAttempts = 0
  methodLock : method.lockedUntil = none
  credentialFailures : credential.failedAttempts = 0
  credentialLock : credential.lockedUntil = none

/-- After the same failures both are locked alike. -/
theorem lockedAlike_afterFailures (h : BothClear method credential) (times : List ℤ) :
    LockedAlike times.getLast? (method.afterFailures times)
      (credential.afterFailures DEFAULT_LOCKOUT_POLICY times) := by
  induction times using List.reverseRecOn with
  | nil =>
    exact
      { failedAttempts := h.methodFailures.trans h.credentialFailures.symm
        lockedUntil := h.methodLock.trans h.credentialLock.symm
        within := by
          intro lockedUntil hlock
          cases h.credentialLock.symm.trans hlock }
  | append_singleton times now ih =>
    rw [Mfa.MfaMethod.afterFailures, Credential.afterFailures, List.foldl_append,
      List.foldl_append, List.getLast?_concat]
    exact ih.recordFailedAttempt

/-- Further failures, in the order of their times, do not move the end of a lock back. -/
theorem lockedUntil_le_afterFailures (h : BothClear method credential) {before after : List ℤ}
    (hsorted : (before ++ after).Pairwise (· ≤ ·)) {lockedUntil : ℤ}
    (hlock : (method.afterFailures before).lockedUntil = some lockedUntil) :
    ∃ later, (method.afterFailures (before ++ after)).lockedUntil = some later ∧
      lockedUntil ≤ later := by
  induction after using List.reverseRecOn with
  | nil => exact ⟨lockedUntil, by rw [List.append_nil]; exact hlock, le_rfl⟩
  | append_singleton after now ih =>
    rw [← List.append_assoc] at hsorted ⊢
    obtain ⟨hsorted, -, hbefore⟩ := List.pairwise_append.mp hsorted
    obtain ⟨middle, hmiddle, hle⟩ := ih hsorted
    have halike := lockedAlike_afterFailures h (before ++ after)
    have hlast : ∀ time ∈ (before ++ after).getLast?, time ≤ now := by
      intro time htime
      exact hbefore time (List.mem_of_mem_getLast? htime) now List.mem_cons_self
    obtain ⟨later, hlater, hle'⟩ := halike.le_recordFailedAttempt hlast hmiddle
    refine ⟨later, ?_, hle.trans hle'⟩
    rw [Mfa.MfaMethod.afterFailures, List.foldl_append]
    exact hlater

end

end Verixa
