import Verixa.Concurrency.Run
import Verixa.SharedKernel.BruteForce

/-!
# Overlapping failures

Calls of `BruteForcePolicy.recordFailure` on one key, each in two steps: it reads the count, and
later writes the count and the lock it has computed from what it has read.  Between the two other
calls may run.

Once no call is in progress and the count has reached the threshold, the key should be locked until
the time of the last failure and the duration for that count.  Calls that overlap compute their
locks from the same count, and the store counts them all: five at once reach the threshold without a
lock (`not_locks_of_overlap`).  The key is locked as it should be exactly when the write that leaves
no call in progress computes its lock from a count that locks as long as the one it leaves, and the
lock ends at a time a date can have (`concurrent_failures_lock`).
-/

namespace Verixa.BruteForce

open Concurrency

/-- The store, what the calls in progress have read, and when the last failure was recorded. -/
structure FailingCalls where
  store : InMemoryBruteForceAttemptStore
  inProgress : List ℕ
  lastFailure : Option ℕ

/-- What can happen next. -/
inductive FailingEvent where
  /-- A call begins and reads the count. -/
  | begin
  /-- A call in progress records its failure. -/
  | resume (i : ℕ) (now : ℕ)

variable (thresholds : BruteForceThresholds) (key : String)

namespace FailingCalls

/-- A store with no call in progress. -/
def start (store : InMemoryBruteForceAttemptStore) : FailingCalls := ⟨store, [], none⟩

/-- The failures counted for the key. -/
def count (calls : FailingCalls) : ℕ := (calls.store.read key).failedAttempts

/-- One event. -/
def step (calls : FailingCalls) : FailingEvent → Option FailingCalls
  | .begin => some { calls with inProgress := calls.inProgress ++ [calls.count key] }
  | .resume i now => calls.inProgress[i]?.map fun failedAttempts =>
    { store := recordFailure thresholds calls.store key failedAttempts now
      inProgress := calls.inProgress.eraseIdx i
      lastFailure := some now }

end FailingCalls

/-- With no call in progress and the threshold reached, the key is locked from the last failure on
for the duration of its count. -/
def Locks (calls : FailingCalls) : Prop :=
  calls.inProgress = [] → ∀ time, calls.lastFailure = some time →
    thresholds.threshold ≤ calls.count key →
      ∃ date, (calls.store.read key).lockedUntil = some (.valid date) ∧
        (time : ℚ) + lockDurationMs (calls.count key) thresholds ≤ date.time

/-- The last call in progress, when it brings the count to the threshold, has read a count that
locks as long as the count it finds, for some time, and the lock ends at the time of a date. -/
def InStep (calls : FailingCalls) : FailingEvent → Prop
  | .begin => True
  | .resume _ now => calls.inProgress.length = 1 →
    thresholds.threshold ≤ calls.count key + 1 → ∀ failedAttempts ∈ calls.inProgress,
      lockDurationMs (failedAttempts + 1) thresholds =
          lockDurationMs (calls.count key + 1) thresholds ∧
        lockDurationMs (calls.count key + 1) thresholds ≠ 0 ∧
        IsTimeValue (now + lockDurationMs (calls.count key + 1) thresholds)

instance (calls : FailingCalls) (event : FailingEvent) :
    Decidable (InStep thresholds key calls event) := by
  cases event <;> unfold InStep <;> infer_instance

variable {thresholds key} {calls next : FailingCalls}

@[simp] theorem count_recordFailure {store : InMemoryBruteForceAttemptStore} {read now : ℕ}
    {inProgress : List ℕ} {lastFailure : Option ℕ} :
    FailingCalls.count key
        ⟨recordFailure thresholds store key read now, inProgress, lastFailure⟩ =
      (store.read key).failedAttempts + 1 := by
  simp [FailingCalls.count, recordFailure, InMemoryBruteForceAttemptStore.recordFailure,
    InMemoryBruteForceAttemptStore.read]

@[simp] theorem lockedUntil_recordFailure {store : InMemoryBruteForceAttemptStore} {read now : ℕ} :
    ((recordFailure thresholds store key read now).read key).lockedUntil =
      lockUntil thresholds (read + 1) now := by
  simp [recordFailure, InMemoryBruteForceAttemptStore.recordFailure,
    InMemoryBruteForceAttemptStore.read]

/-- A lock that is a date lasts for some time, and ends no later than its duration says. -/
theorem of_lockUntil {failedAttempts now : ℕ} {date : Date} (hsensible : thresholds.Sensible)
    (h : lockUntil thresholds failedAttempts now = some (.valid date)) :
    lockDurationMs failedAttempts thresholds ≠ 0 ∧
      (date.time : ℚ) ≤ now + lockDurationMs failedAttempts thresholds ∧
      |(now : ℚ) + lockDurationMs failedAttempts thresholds| ≤ maxTime := by
  unfold lockUntil at h
  dsimp only at h
  split at h
  · cases h
  · rename_i hdur
    have hpos : 0 ≤ ((now : ℤ) : ℚ) + lockDurationMs failedAttempts thresholds := by
      have hzero : lockDurationMs 0 thresholds ≤ lockDurationMs failedAttempts thresholds :=
        lockDurationMs_mono hsensible (Nat.zero_le failedAttempts)
      rw [lockDurationMs_of_lt hsensible.threshold] at hzero
      positivity
    obtain ⟨hle, hrange⟩ := DateObject.time_le_of_ofTime hpos (Option.some.inj h)
    exact ⟨hdur, by simpa using hle, by simpa using hrange⟩

/-! ## One write -/

/-- What a step does: a call reads the count, or one in progress adds one to it. -/
theorem step_cases {event : FailingEvent} (h : calls.step thresholds key event = some next) :
    (event = .begin ∧ next = ⟨calls.store, calls.inProgress ++ [calls.count key],
      calls.lastFailure⟩) ∨
    ∃ i now failedAttempts, event = .resume i now ∧ calls.inProgress[i]? = some failedAttempts ∧
      next = ⟨recordFailure thresholds calls.store key failedAttempts now,
        calls.inProgress.eraseIdx i, some now⟩ := by
  cases event with
  | begin =>
    cases h
    exact .inl ⟨rfl, rfl⟩
  | resume i now =>
    obtain ⟨failedAttempts, hread, rfl⟩ := Option.map_eq_some_iff.mp h
    exact .inr ⟨i, now, failedAttempts, rfl, hread, rfl⟩

/-- A write in step leaves the key locked. -/
theorem locks_of_inStep {event : FailingEvent} (hok : InStep thresholds key calls event)
    (h : calls.step thresholds key event = some next) : Locks thresholds key next := by
  rcases step_cases h with ⟨rfl, rfl⟩ | ⟨i, now, failedAttempts, rfl, hread, rfl⟩
  · exact fun hnone => absurd hnone (by simp)
  · intro hnone time htime hmany
    have hi := (List.getElem?_eq_some_iff.mp hread).1
    have herased : calls.inProgress.eraseIdx i = [] := hnone
    have hlength : calls.inProgress.length = 1 := by
      have hone := List.length_eraseIdx_of_lt hi
      rw [herased, List.length_nil] at hone
      omega
    cases htime
    rw [count_recordFailure] at hmany ⊢
    obtain ⟨hsame, hdur, hdate⟩ :=
      hok hlength hmany failedAttempts (List.mem_of_getElem? hread)
    rw [FailingCalls.count] at hsame hdur hdate
    obtain ⟨date, hlock, hend⟩ := exists_lockUntil (hsame ▸ hdur) (hsame ▸ hdate)
    refine ⟨date, by rw [lockedUntil_recordFailure, hlock], ?_⟩
    rw [hend, hsame]
    simp

/-- No call has read more than has been counted. -/
def ReadsCounted (key : String) (calls : FailingCalls) : Prop :=
  ∀ failedAttempts ∈ calls.inProgress, failedAttempts ≤ calls.count key

theorem ReadsCounted.step {event : FailingEvent} (hreads : ReadsCounted key calls)
    (h : calls.step thresholds key event = some next) : ReadsCounted key next := by
  intro failedAttempts hmem
  rcases step_cases h with ⟨rfl, rfl⟩ | ⟨i, now, read, rfl, hread, rfl⟩
  · rcases List.mem_append.mp hmem with hold | hnew
    · exact hreads failedAttempts hold
    · exact (List.mem_singleton.mp hnew).le
  · rw [count_recordFailure]
    exact (hreads failedAttempts (List.mem_of_mem_eraseIdx hmem)).trans (Nat.le_succ _)

/-- A write that leaves the key locked was in step. -/
theorem inStep_of_locks {event : FailingEvent} (hsensible : thresholds.Sensible)
    (hreads : ReadsCounted key calls) (h : calls.step thresholds key event = some next)
    (hlocks : Locks thresholds key next) : InStep thresholds key calls event := by
  rcases step_cases h with ⟨rfl, rfl⟩ | ⟨i, now, read, rfl, hread, rfl⟩
  · trivial
  · intro hlength hmany failedAttempts hmem
    obtain ⟨only, honly⟩ := List.length_eq_one_iff.mp hlength
    have hi := (List.getElem?_eq_some_iff.mp hread).1
    have hnone : calls.inProgress.eraseIdx i = [] := by
      rw [← List.length_eq_zero_iff, List.length_eraseIdx_of_lt hi, hlength]
    have hread' : read = failedAttempts := by
      have hread := List.mem_of_getElem? hread
      rw [honly, List.mem_singleton] at hread hmem
      rw [hread, hmem]
    subst hread'
    obtain ⟨date, hlock, hend⟩ := hlocks hnone now rfl (by rw [count_recordFailure]; exact hmany)
    rw [lockedUntil_recordFailure] at hlock
    rw [count_recordFailure] at hend
    obtain ⟨hdur, hle, hrange⟩ := of_lockUntil hsensible hlock
    have hmono : lockDurationMs (read + 1) thresholds ≤
        lockDurationMs (calls.count key + 1) thresholds :=
      lockDurationMs_mono hsensible (Nat.succ_le_succ (hreads read hmem))
    change (now : ℚ) + lockDurationMs (calls.count key + 1) thresholds ≤ date.time at hend
    have hsame : lockDurationMs (read + 1) thresholds =
        lockDurationMs (calls.count key + 1) thresholds := by linarith
    have hdate : (now : ℚ) + lockDurationMs (read + 1) thresholds = (date.time : ℤ) := by linarith
    rw [← hsame]
    refine ⟨rfl, hdur, ?_, hrange⟩
    rw [hdate, Int.floor_intCast]

/-! ## Calls that do not overlap -/

/-- A call begins only when no other is in progress. -/
def Alone (calls : FailingCalls) : FailingEvent → Prop
  | .begin => calls.inProgress = []
  | .resume _ _ => True

/-- Without overlap a call in progress has read the count as it still is. -/
theorem read_of_alone {store : InMemoryBruteForceAttemptStore}
    (h : RunWhile (FailingCalls.step thresholds key) Alone (.start store) calls) :
    calls.inProgress = [] ∨ calls.inProgress = [calls.count key] := by
  refine h.invariant (I := fun calls => calls.inProgress = [] ∨
    calls.inProgress = [calls.count key]) (.inl rfl) fun calls event next hreads halone hstep => ?_
  rcases step_cases hstep with ⟨rfl, rfl⟩ | ⟨i, now, read, rfl, hread, rfl⟩
  · have hnone : calls.inProgress = [] := halone
    right
    rw [hnone]
    rfl
  · left
    have hi := (List.getElem?_eq_some_iff.mp hread).1
    change calls.inProgress.eraseIdx i = []
    rcases hreads with hnone | hone
    · rw [hnone] at hi
      exact absurd hi (Nat.not_lt_zero i)
    · rw [hone] at hi ⊢
      obtain rfl : i = 0 := by simpa using hi
      rfl

/-- Without overlap a write is in step as soon as its lock ends at the time of a date. -/
theorem inStep_of_alone {store : InMemoryBruteForceAttemptStore} {i now : ℕ}
    (hsensible : thresholds.Sensible)
    (h : RunWhile (FailingCalls.step thresholds key) Alone (.start store) calls)
    (hdate : IsTimeValue (now + lockDurationMs (calls.count key + 1) thresholds)) :
    InStep thresholds key calls (.resume i now) := by
  intro _ hmany failedAttempts hmem
  have hread : failedAttempts = calls.count key := by
    rcases read_of_alone h with hnone | hone
    · rw [hnone] at hmem
      cases hmem
    · rw [hone] at hmem
      exact List.mem_singleton.mp hmem
  rw [hread]
  exact ⟨rfl, (hsensible.base.trans_le (base_le_lockDurationMs hsensible hmany)).ne', hdate⟩

/-! ## Five failures -/

/-- The thresholds a deployment gets by default. -/
def defaultThresholds : BruteForceThresholds := ofCurve DEFAULT_BRUTE_FORCE_THRESHOLDS

theorem defaultThresholds_sensible : defaultThresholds.Sensible := by
  constructor <;> decide +kernel

/-- Four failures, one after another, and a fifth that is about to be recorded. -/
def fourFailures : List FailingEvent :=
  (List.range 4).flatMap (fun second => [.begin, .resume 0 (1000 * second)]) ++ [.begin]

/-- Five calls that all begin before the first failure is recorded. -/
def fiveAtOnce : List FailingEvent :=
  List.replicate 5 .begin ++ List.replicate 5 (.resume 0 1000)

/-- Where a schedule leads, from an empty store. -/
def sampleCalls (events : List FailingEvent)
    (h : (exec (FailingCalls.step defaultThresholds "login:ada") (.start .empty) events).isSome) :
    FailingCalls :=
  (exec (FailingCalls.step defaultThresholds "login:ada") (.start .empty) events).get h

/-! ## Every run -/

/-- The key is locked in every state of a run whose writes are in step, and where the thresholds
are sensible a write of any run that leaves the key locked is in step. -/
theorem concurrent_failures_lock (thresholds : BruteForceThresholds) (key : String)
    (store : InMemoryBruteForceAttemptStore) :
    (∀ calls, RunWhile (FailingCalls.step thresholds key) (InStep thresholds key)
        (FailingCalls.start store) calls → Locks thresholds key calls) ∧
      (thresholds.Sensible → ∀ calls event next,
        Run (FailingCalls.step thresholds key) (FailingCalls.start store) calls →
          calls.step thresholds key event = some next → Locks thresholds key next →
            InStep thresholds key calls event) := by
  constructor
  · intro calls hrun
    cases hrun with
    | refl => exact fun _ time htime => nomatch htime
    | tail _ hok hstep => exact locks_of_inStep hok hstep
  · intro hsensible calls event next hrun hstep hlocks
    have hreads : ReadsCounted key calls :=
      hrun.invariant (fun failedAttempts hmem => nomatch hmem) fun _ _ _ hreads _ hstep =>
        hreads.step hstep
    exact inStep_of_locks hsensible hreads hstep hlocks

/-- Five failures one after another lock the key, and the fifth was in step. -/
theorem concurrent_failures_lock_sample :
    (∃ calls, execWhile (FailingCalls.step defaultThresholds "login:ada")
        (InStep defaultThresholds "login:ada") (.start .empty)
        (fourFailures ++ [.resume 0 4000]) = some calls ∧
      Locks defaultThresholds "login:ada" calls) ∧
    InStep defaultThresholds "login:ada" (sampleCalls fourFailures (by decide +kernel))
      (.resume 0 4000) := by
  constructor
  · have hsome : (execWhile (FailingCalls.step defaultThresholds "login:ada")
        (InStep defaultThresholds "login:ada") (.start .empty)
        (fourFailures ++ [.resume 0 4000])).isSome = true := by decide +kernel
    obtain ⟨calls, hcalls⟩ := Option.isSome_iff_exists.mp hsome
    exact ⟨calls, hcalls,
      (concurrent_failures_lock _ _ .empty).1 calls (runWhile_of_execWhile hcalls)⟩
  · refine (concurrent_failures_lock _ _ .empty).2 defaultThresholds_sensible _ _ _
      (runWhile_get _) rfl ?_
    intro _ time htime _
    cases htime
    exact ⟨⟨64000, by decide⟩, by decide +kernel, by decide +kernel⟩

/-- Five failures at once reach the threshold and leave the key unlocked. -/
theorem not_locks_of_overlap :
    ¬ ∀ (thresholds : BruteForceThresholds) (key : String) (calls : FailingCalls),
      thresholds.Sensible →
        Run (FailingCalls.step thresholds key) (FailingCalls.start .empty) calls →
          Locks thresholds key calls := by
  intro h
  have hlocks := h defaultThresholds "login:ada" (sampleCalls fiveAtOnce (by decide +kernel))
    defaultThresholds_sensible (runWhile_get _)
  obtain ⟨date, hdate, -⟩ := hlocks (by decide +kernel) 1000 (by decide +kernel) (by decide +kernel)
  have hnone : ((sampleCalls fiveAtOnce (by decide +kernel)).store.read "login:ada").lockedUntil =
      none := by decide +kernel
  rw [hnone] at hdate
  cases hdate

end Verixa.BruteForce
