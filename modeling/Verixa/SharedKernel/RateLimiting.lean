import Verixa.Encoding.Text
import Verixa.SharedKernel.Errors

/-!
# Rate limits and lockouts

The rate limiter is a port: all that is assumed of it is that its answer for a key depends only on
the calls made for that key.  The brute-force policy keeps a counter of failures for each key, and
refuses the key for a while when there are too many; how long is said by the same curve as for the
lockout of an account.
-/

namespace Verixa

open Encoding

/-! ## The rate limiter -/

/-- The actions that are limited. -/
inductive RateLimitAction where
  | login
  | register
  | passwordReset
  | emailVerification
  | mfa
  | apiKey
  deriving DecidableEq

/-- The text of an action. -/
def RateLimitAction.text : RateLimitAction → String
  | login => "login"
  | register => "register"
  | passwordReset => "password-reset"
  | emailVerification => "email-verification"
  | mfa => "mfa"
  | apiKey => "api-key"

/-- What is limited, and for whom. -/
structure RateLimitKey where
  action : RateLimitAction
  identifier : String
  «namespace» : Option String := none
  deriving DecidableEq

/-- The answer of a limiter. -/
structure RateLimitResult where
  allowed : Bool
  remaining : ℤ
  resetAt : ℤ
  limit : ℤ
  deriving DecidableEq

/-- A call that a limiter counts. -/
inductive RateLimiterCall where
  | recordFailure
  | reset
  deriving DecidableEq

/-- A rate limiter: the answer for a key, after the calls made for that key, oldest first. -/
structure RateLimiter where
  check : RateLimitKey → List RateLimiterCall → RateLimitResult

/-- The limiter that always allows, with the reset time that it reports. -/
def RateLimiter.noop (resetAt : ℤ) : RateLimiter where
  check _ _ := ⟨true, 999, resetAt, 1000⟩

/-- What a use case throws when a limiter refuses it. -/
def rateLimitExceeded (key : RateLimitKey) (resetAt : ℤ) : ThrownError :=
  match isoTextOf resetAt with
  | .ok date =>
    { message := "Rate limit exceeded for " ++ key.action.text ++ " on " ++ key.identifier ++
        ". Resets at " ++ date }
  | .error error => error

/-! ## The backoff curve -/

/-- How many failures are tolerated, and for how long a lock lasts. -/
structure BackoffCurve where
  threshold : ℕ
  baseDurationMs : ℤ
  backoffFactor : ℤ
  maxDurationMs : ℤ
  deriving DecidableEq

/-- How long a lock lasts after so many failures; no time below the threshold. -/
def BackoffCurve.lockDurationMs (failedAttempts : ℕ) (curve : BackoffCurve) : ℤ :=
  if failedAttempts < curve.threshold then 0
  else
    let stepsPastThreshold := failedAttempts - curve.threshold
    let uncapped :=
      if 64 < stepsPastThreshold then curve.maxDurationMs
      else curve.baseDurationMs * curve.backoffFactor ^ stepsPastThreshold
    min uncapped curve.maxDurationMs

theorem BackoffCurve.lockDurationMs_of_lt {failedAttempts : ℕ} {curve : BackoffCurve}
    (h : failedAttempts < curve.threshold) : curve.lockDurationMs failedAttempts = 0 :=
  if_pos h

/-- From the threshold on a lock lasts for some time, if the durations of the curve do. -/
theorem BackoffCurve.lockDurationMs_pos {failedAttempts : ℕ} {curve : BackoffCurve}
    (hbase : 0 < curve.baseDurationMs) (hfactor : 0 < curve.backoffFactor)
    (hmax : 0 < curve.maxDurationMs) (h : curve.threshold ≤ failedAttempts) :
    0 < curve.lockDurationMs failedAttempts := by
  have hsteps :
      0 < curve.baseDurationMs * curve.backoffFactor ^ (failedAttempts - curve.threshold) :=
    mul_pos hbase (pow_pos hfactor _)
  rw [lockDurationMs, if_neg (not_lt.mpr h)]
  dsimp only
  split
  · exact lt_min hmax hmax
  · exact lt_min hsteps hmax

/-! ## The brute-force policy -/

/-- What a store holds for a key; a key it has never seen has no failures and no lock. -/
structure AttemptRecord where
  failedAttempts : ℕ := 0
  lockedUntil : Option ℤ := none
  deriving DecidableEq

/-- How many failures the brute-force policy tolerates. -/
abbrev BruteForceThresholds := BackoffCurve

/-- The thresholds that a deployment gets by default. -/
def DEFAULT_BRUTE_FORCE_THRESHOLDS : BruteForceThresholds where
  threshold := 5
  baseDurationMs := 60000
  backoffFactor := 2
  maxDurationMs := 3600000

/-- Which gate has refused. -/
inductive BruteForceDenialSource where
  | lockout
  | rateLimit
  | both
  deriving DecidableEq

/-- Whether an attempt may proceed. -/
structure BruteForceDecision where
  allowed : Bool
  retryAfterSeconds : Option ℤ := none
  source : Option BruteForceDenialSource := none
  deriving DecidableEq

/-- A brute-force policy; its store is kept elsewhere. -/
structure BruteForcePolicy where
  thresholds : BruteForceThresholds := DEFAULT_BRUTE_FORCE_THRESHOLDS
  limiter : Option RateLimiter := none

namespace BruteForcePolicy

/-- The bucket that a set of attempts shares. -/
def key (toLowerCase : String → String) (scope : RateLimitAction) (identifier : String) : String :=
  scope.text ++ ":" ++ toLowerCase (trim identifier)

/-- `Math.ceil(ms / 1000)`. -/
def ceilSeconds (ms : ℤ) : ℤ := -(-ms / 1000)

/-- For how much longer a lock lasts. -/
def remainingLockMs (lockedUntil : Option ℤ) (now : ℤ) : ℤ :=
  match lockedUntil with
  | none => 0
  | some time => max (time - now) 0

/-- In how many seconds a limiter admits again, if that is known. -/
def secondsUntil (resetAt now : ℤ) : Option ℤ :=
  let remainingMs := resetAt - now
  if 0 < remainingMs then some (ceilSeconds remainingMs) else none

/-- The decision from what is left of a lock and from whether the limiter has refused. -/
def decision (remainingMs : ℤ) (limited : Bool) (limiterSeconds : Option ℤ) :
    BruteForceDecision :=
  let locked := decide (0 < remainingMs)
  if !locked && !limited then { allowed := true }
  else
    let lockoutSeconds := if locked then some (ceilSeconds remainingMs) else none
    { allowed := false
      source := some (if locked && limited then .both else if locked then .lockout else .rateLimit)
      retryAfterSeconds :=
        match lockoutSeconds, limiterSeconds with
        | some lockout, some limiter => some (max lockout limiter)
        | some lockout, none => some lockout
        | none, limiter => limiter }

/-- An attempt may proceed when nothing is left of a lock and the limiter does not refuse. -/
theorem allowed_decision (remainingMs : ℤ) (limited : Bool) (limiterSeconds : Option ℤ) :
    (decision remainingMs limited limiterSeconds).allowed =
      (!decide (0 < remainingMs) && !limited) := by
  unfold decision
  by_cases hlocked : 0 < remainingMs
  · simp [hlocked]
  · cases limited <;> simp [hlocked]

end BruteForcePolicy

end Verixa
