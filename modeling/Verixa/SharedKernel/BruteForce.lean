import Verixa.SharedKernel.IsoDate
import Verixa.SharedKernel.NumberArithmetic
import Verixa.SharedKernel.RateLimiting

/-!
# The brute-force policy over the in-memory store

The policy with durations that are any numbers and with locks that are dates: a lock whose end is no
whole number of milliseconds ends at the millisecond before it, and a lock that would end too late
for a date is an invalid date, which has no time left and is not cleared either.  With whole
durations and dates in range it is the policy the credential use cases are given with
(`lockDurationMs_ofCurve`).

The gate itself is unchanged, and is used from there.
-/

namespace Verixa

/-- A `Date` object. -/
inductive DateObject where
  | invalid
  | valid (date : Date)
  deriving DecidableEq

/-- `new Date(time)`. -/
def DateObject.ofTime (time : ℚ) : DateObject :=
  if |time| ≤ maxTime then
    match Date.ofTime? (Number.cutOff time) with
    | some date => .valid date
    | none => .invalid
  else .invalid

/-- A number of milliseconds that is the time of a date. -/
def IsTimeValue (time : ℚ) : Prop := time = ⌊time⌋ ∧ |time| ≤ maxTime

instance (time : ℚ) : Decidable (IsTimeValue time) := inferInstanceAs (Decidable (_ ∧ _))

/-- A date is what the number of milliseconds says when that is the time of one. -/
theorem DateObject.exists_ofTime {time : ℚ} (h : IsTimeValue time) :
    ∃ date : Date, DateObject.ofTime time = .valid date ∧ (date.time : ℚ) = time := by
  obtain ⟨hwhole, hrange⟩ := h
  generalize ⌊time⌋ = n at hwhole
  subst hwhole
  have hbounds : -maxTime ≤ n ∧ n ≤ maxTime := by
    rw [abs_le] at hrange
    exact ⟨by exact_mod_cast hrange.1, by exact_mod_cast hrange.2⟩
  refine ⟨⟨n, hbounds⟩, ?_, rfl⟩
  rw [ofTime, if_pos hrange, Number.cutOff_intCast, Date.ofTime?, dif_pos hbounds]

/-- A date made of a number that is not negative is not later than the number. -/
theorem DateObject.time_le_of_ofTime {time : ℚ} {date : Date} (hpos : 0 ≤ time)
    (h : DateObject.ofTime time = .valid date) : (date.time : ℚ) ≤ time ∧ |time| ≤ maxTime := by
  unfold ofTime at h
  split at h
  · rename_i hrange
    rw [Number.cutOff, if_pos hpos] at h
    unfold Date.ofTime? at h
    split at h
    · rename_i hsome
      split at hsome
      · cases hsome
        cases h
        exact ⟨Int.floor_le time, hrange⟩
      · cases hsome
    · cases h
  · cases h

namespace BruteForce

open BruteForcePolicy (decision secondsUntil)

/-- How many failures are tolerated, and for how long a key is then refused. -/
structure BruteForceThresholds where
  threshold : ℕ
  baseDurationMs : ℚ
  backoffFactor : ℚ
  maxDurationMs : ℚ

/-- How long to refuse after so many failures. -/
def lockDurationMs (failedAttempts : ℕ) (thresholds : BruteForceThresholds) : ℚ :=
  if failedAttempts < thresholds.threshold then 0
  else
    let stepsPastThreshold := failedAttempts - thresholds.threshold
    let uncapped :=
      if 64 < stepsPastThreshold then thresholds.maxDurationMs
      else thresholds.baseDurationMs * thresholds.backoffFactor ^ stepsPastThreshold
    min uncapped thresholds.maxDurationMs

/-- What a store holds for a key. -/
structure AttemptRecord where
  failedAttempts : ℕ
  lockedUntil : Option DateObject

/-- The in-memory store, which answers for the keys it has never seen as well. -/
abbrev InMemoryBruteForceAttemptStore := String → AttemptRecord

namespace InMemoryBruteForceAttemptStore

/-- A store that has seen nothing. -/
def empty : InMemoryBruteForceAttemptStore := fun _ => ⟨0, none⟩

/-- What the store holds for a key. -/
def read (store : InMemoryBruteForceAttemptStore) (key : String) : AttemptRecord := store key

/-- Increment the count of a key. -/
def recordFailure (store : InMemoryBruteForceAttemptStore) (key : String)
    (lockedUntil : Option DateObject) : InMemoryBruteForceAttemptStore :=
  Function.update store key ⟨(store.read key).failedAttempts + 1, lockedUntil⟩

/-- Forget a key. -/
def clear (store : InMemoryBruteForceAttemptStore) (key : String) :
    InMemoryBruteForceAttemptStore :=
  Function.update store key ⟨0, none⟩

end InMemoryBruteForceAttemptStore

/-- For how much longer a lock lasts; `none` is no number. -/
def remainingLockMs (lockedUntil : Option DateObject) (now : ℤ) : Option ℤ :=
  match lockedUntil with
  | none => some 0
  | some .invalid => none
  | some (.valid date) => some (max (date.time - now) 0)

/-- Until when a key is refused from `now` on, after so many failures. -/
def lockUntil (thresholds : BruteForceThresholds) (failedAttempts : ℕ) (now : ℤ) :
    Option DateObject :=
  let durationMs := lockDurationMs failedAttempts thresholds
  if durationMs = 0 then none else some (.ofTime (now + durationMs))

/-- Whether an attempt on a key may proceed at `now`, and the store after it; `limit` is what the
limiter answers, if there is one, and `later` the time when its reset time is looked at. -/
def check (store : InMemoryBruteForceAttemptStore) (key : String) (limit : Option RateLimitResult)
    (now later : ℤ) : BruteForceDecision × InMemoryBruteForceAttemptStore :=
  let record := store.read key
  let remainingMs := remainingLockMs record.lockedUntil now
  let limited := limit.any fun limit => !limit.allowed
  (decision (remainingMs.getD 0) limited
      (if limited then limit.bind fun limit => secondsUntil limit.resetAt later else none),
    if remainingMs = some 0 ∧ record.lockedUntil ≠ none then store.clear key else store)

/-- Record a failure whose record was read as `failedAttempts`. -/
def recordFailure (thresholds : BruteForceThresholds) (store : InMemoryBruteForceAttemptStore)
    (key : String) (failedAttempts : ℕ) (now : ℤ) : InMemoryBruteForceAttemptStore :=
  store.recordFailure key (lockUntil thresholds (failedAttempts + 1) now)

/-- Forget a key after a success. -/
def recordSuccess (store : InMemoryBruteForceAttemptStore) (key : String) :
    InMemoryBruteForceAttemptStore :=
  store.clear key

/-! ## What a check does -/

section

variable {store : InMemoryBruteForceAttemptStore} {key : String} {limit : Option RateLimitResult}
  {now later : ℤ}

/-- A lapsed lock is cleared. -/
theorem check_clears (hzero : remainingLockMs (store.read key).lockedUntil now = some 0)
    (hlock : (store.read key).lockedUntil ≠ none) :
    (check store key limit now later).2 = store.clear key := if_pos ⟨hzero, hlock⟩

/-- Otherwise nothing is written. -/
theorem check_keeps (h : ¬ (remainingLockMs (store.read key).lockedUntil now = some 0 ∧
    (store.read key).lockedUntil ≠ none)) : (check store key limit now later).2 = store := if_neg h

/-- An attempt is allowed only when nothing is left of a lock. -/
theorem remaining_of_allowed (h : (check store key limit now later).1.allowed = true) :
    (remainingLockMs (store.read key).lockedUntil now).getD 0 ≤ 0 := by
  unfold check at h
  dsimp only at h
  rw [BruteForcePolicy.allowed_decision, Bool.and_eq_true, Bool.not_eq_true',
    decide_eq_false_iff_not] at h
  exact not_lt.mp h.1

end

/-! ## Durations -/

/-- The thresholds of a curve of whole numbers. -/
def ofCurve (curve : BackoffCurve) : BruteForceThresholds where
  threshold := curve.threshold
  baseDurationMs := curve.baseDurationMs
  backoffFactor := curve.backoffFactor
  maxDurationMs := curve.maxDurationMs

/-- With whole numbers the durations are those of the curve. -/
theorem lockDurationMs_ofCurve (failedAttempts : ℕ) (curve : BackoffCurve) :
    lockDurationMs failedAttempts (ofCurve curve) = curve.lockDurationMs failedAttempts := by
  unfold lockDurationMs BackoffCurve.lockDurationMs ofCurve
  dsimp only
  split
  · simp
  · split <;> push_cast <;> rfl

/-- Thresholds under which a lock lasts for some time, and no shorter after more failures. -/
structure BruteForceThresholds.Sensible (thresholds : BruteForceThresholds) : Prop where
  threshold : 1 ≤ thresholds.threshold
  base : 0 < thresholds.baseDurationMs
  factor : 1 ≤ thresholds.backoffFactor
  max : thresholds.baseDurationMs ≤ thresholds.maxDurationMs

variable {thresholds : BruteForceThresholds}

/-- The first refusal lasts for the base duration. -/
theorem lockDurationMs_threshold (h : thresholds.Sensible) :
    lockDurationMs thresholds.threshold thresholds = thresholds.baseDurationMs := by
  simp [lockDurationMs, h.max]

theorem lockDurationMs_of_lt {failedAttempts : ℕ} (h : failedAttempts < thresholds.threshold) :
    lockDurationMs failedAttempts thresholds = 0 := if_pos h

/-- From the threshold on a refusal lasts at least for the base duration. -/
theorem base_le_lockDurationMs (h : thresholds.Sensible) {failedAttempts : ℕ}
    (hmany : thresholds.threshold ≤ failedAttempts) :
    thresholds.baseDurationMs ≤ lockDurationMs failedAttempts thresholds := by
  rw [lockDurationMs, if_neg (not_lt.mpr hmany)]
  dsimp only
  refine le_min ?_ h.max
  split
  · exact h.max
  · exact le_mul_of_one_le_right h.base.le (one_le_pow₀ h.factor)

/-- More failures are not refused for a shorter time. -/
theorem lockDurationMs_mono (h : thresholds.Sensible) {m n : ℕ} (hmn : m ≤ n) :
    lockDurationMs m thresholds ≤ lockDurationMs n thresholds := by
  rcases lt_or_ge m thresholds.threshold with hfew | hmany
  · rw [lockDurationMs_of_lt hfew]
    rcases lt_or_ge n thresholds.threshold with hfew' | hmany'
    · rw [lockDurationMs_of_lt hfew']
    · exact h.base.le.trans (base_le_lockDurationMs h hmany')
  · have hmany' : thresholds.threshold ≤ n := hmany.trans hmn
    rw [lockDurationMs, lockDurationMs, if_neg (not_lt.mpr hmany), if_neg (not_lt.mpr hmany')]
    dsimp only
    by_cases hcap : 64 < n - thresholds.threshold
    · rw [if_pos hcap, min_self]
      exact min_le_right _ _
    · rw [if_neg hcap, if_neg (by omega)]
      have hpow : thresholds.backoffFactor ^ (m - thresholds.threshold) ≤
          thresholds.backoffFactor ^ (n - thresholds.threshold) :=
        pow_le_pow_right₀ h.factor (by omega)
      exact min_le_min_right _ (mul_le_mul_of_nonneg_left hpow h.base.le)

/-- A lock for some time whose end is the time of a date ends there. -/
theorem exists_lockUntil {failedAttempts : ℕ} {now : ℤ}
    (hdur : lockDurationMs failedAttempts thresholds ≠ 0)
    (htime : IsTimeValue (now + lockDurationMs failedAttempts thresholds)) :
    ∃ date, lockUntil thresholds failedAttempts now = some (.valid date) ∧
      (date.time : ℚ) = now + lockDurationMs failedAttempts thresholds := by
  obtain ⟨date, hdate, hsame⟩ := DateObject.exists_ofTime htime
  refine ⟨date, ?_, hsame⟩
  unfold lockUntil
  dsimp only
  rw [if_neg hdur, hdate]

end BruteForce

end Verixa
