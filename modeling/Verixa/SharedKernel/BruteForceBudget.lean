import Mathlib.Tactic.Linarith
import Verixa.Concurrency.Run
import Verixa.SharedKernel.BruteForce

/-!
# The budget of guesses

Calls of the brute-force policy, one after another, on any keys, with a clock that does not go
backwards.  The history says which calls were made and what they answered.  On one key every failure
is recorded directly after a check that has allowed it, and no success is.

Such runs should record at most `threshold` failures in any window of the length of the first
refusal.  They do when each lock ends at a time that a date can have (`brute_force_budget`); the
calls on other keys change neither what is stored for the key nor an answer.  A lock of one and a
half milliseconds ends after one, and admits a second guess within the window
(`budget_exceeded_by_fraction`).
-/

namespace Verixa.BruteForce

open Concurrency

/-! ## Windows -/

/-- A time is in the window of a length that begins at `start`. -/
def inWindow (length start : ℚ) (time : ℤ) : Bool :=
  decide (start ≤ time) && decide ((time : ℚ) < start + length)

/-- No window of a length has more than `bound` of the times. -/
def WithinBudget (length : ℚ) (bound : ℕ) (times : List ℤ) : Prop :=
  ∀ start, times.countP (inWindow length start) ≤ bound

/-- Times that follow the earlier ones at a distance have windows of their own. -/
theorem WithinBudget.append {length : ℚ} {bound : ℕ} {older current : List ℤ}
    (holder : WithinBudget length bound older) (hfew : current.length ≤ bound)
    (hgap : ∀ o ∈ older, ∀ c ∈ current, (o : ℚ) + length ≤ c) :
    WithinBudget length bound (older ++ current) := by
  intro start
  rw [List.countP_append]
  by_cases hnone : current.countP (inWindow length start) = 0
  · rw [hnone]
    exact holder start
  · -- a window that holds a later time begins after all the earlier ones
    obtain ⟨c, hc, hin⟩ := List.countP_pos_iff.mp (Nat.pos_of_ne_zero hnone)
    have hc' : start ≤ (c : ℚ) ∧ (c : ℚ) < start + length := by simpa [inWindow] using hin
    have hout : older.countP (inWindow length start) = 0 := by
      refine List.countP_eq_zero.mpr fun o ho hin => ?_
      have ho' : start ≤ (o : ℚ) ∧ (o : ℚ) < start + length := by simpa [inWindow] using hin
      have hfar := hgap o ho c hc
      linarith [ho'.1, hc'.2]
    rw [hout, Nat.zero_add]
    exact (List.countP_le_length).trans hfew

/-! ## Calls and their history -/

/-- A call of the policy; a check is given the answer of the limiter. -/
inductive AttemptCall where
  | check (key : String) (limit : Option RateLimitResult) (now later : ℤ)
  | recordFailure (key : String) (now : ℤ)
  | recordSuccess (key : String) (now : ℤ)

namespace AttemptCall

/-- The key a call is about. -/
def key : AttemptCall → String
  | check key _ _ _ => key
  | recordFailure key _ => key
  | recordSuccess key _ => key

/-- The time of a call. -/
def now : AttemptCall → ℤ
  | check _ _ now _ => now
  | recordFailure _ now => now
  | recordSuccess _ now => now

/-- The time of a recorded failure. -/
def failureTime : AttemptCall → Option ℤ
  | recordFailure _ now => some now
  | _ => none

end AttemptCall

/-- A call and its answer. -/
structure Answered where
  call : AttemptCall
  answer : Option BruteForceDecision

/-- The store, the time of the last call, and the calls so far. -/
structure Guessing where
  store : InMemoryBruteForceAttemptStore
  now : ℤ
  history : List Answered

/-- The calls on a key. -/
def onKey (key : String) (history : List Answered) : List Answered :=
  history.filter fun answered => answered.call.key = key

/-- The times of the failures recorded for a key. -/
def failuresOf (key : String) (history : List Answered) : List ℤ :=
  (onKey key history).filterMap fun answered => answered.call.failureTime

/-- The last call on a key is a check that has allowed an attempt. -/
def permitted (key : String) (history : List Answered) : Bool :=
  (onKey key history).getLast?.any fun answered => answered.answer.any fun answer => answer.allowed

variable (thresholds : BruteForceThresholds)

/-- The answer of a call and the store after it. -/
def respond (store : InMemoryBruteForceAttemptStore) :
    AttemptCall → Option BruteForceDecision × InMemoryBruteForceAttemptStore
  | .check key limit now later =>
    (some (check store key limit now later).1, (check store key limit now later).2)
  | .recordFailure key now =>
    (none, recordFailure thresholds store key (store.read key).failedAttempts now)
  | .recordSuccess key _ => (none, recordSuccess store key)

namespace Guessing

/-- Nothing is stored, and nothing has been called. -/
def start (now : ℤ) : Guessing := ⟨.empty, now, []⟩

/-- One call, not before the last one. -/
def step (guessing : Guessing) (call : AttemptCall) : Option Guessing :=
  if guessing.now ≤ call.now then
    some
      { store := (respond thresholds guessing.store call).2
        now := call.now
        history := guessing.history ++ [⟨call, (respond thresholds guessing.store call).1⟩] }
  else none

end Guessing

variable (key : String)

/-- On the key, a failure directly follows a check that has allowed it, and no success is
recorded. -/
def Disciplined (guessing : Guessing) (call : AttemptCall) : Prop :=
  call.key = key → match call with
    | .check _ _ _ _ => True
    | .recordFailure _ _ => permitted key guessing.history = true
    | .recordSuccess _ _ => False

/-- A failure of the key that reaches the threshold locks it until the time of a date. -/
def Dated (guessing : Guessing) (call : AttemptCall) : Prop :=
  call.key = key → call.failureTime.isSome →
    thresholds.threshold ≤ (guessing.store.read key).failedAttempts + 1 →
      IsTimeValue (call.now + thresholds.baseDurationMs)

instance (guessing : Guessing) (call : AttemptCall) :
    Decidable (Disciplined key guessing call) := by
  cases call <;> unfold Disciplined <;> infer_instance

instance (guessing : Guessing) (call : AttemptCall) :
    Decidable (Dated thresholds key guessing call) := by
  unfold Dated
  infer_instance

/-- Both. -/
def DisciplinedDated (guessing : Guessing) (call : AttemptCall) : Prop :=
  Disciplined key guessing call ∧ Dated thresholds key guessing call

instance (guessing : Guessing) (call : AttemptCall) :
    Decidable (DisciplinedDated thresholds key guessing call) :=
  inferInstanceAs (Decidable (_ ∧ _))

variable {thresholds key} {guessing next : Guessing} {call : AttemptCall}

theorem onKey_concat_of_eq {history : List Answered} {answered : Answered}
    (h : answered.call.key = key) :
    onKey key (history ++ [answered]) = onKey key history ++ [answered] := by
  simp [onKey, List.filter_append, h]

theorem onKey_concat_of_ne {history : List Answered} {answered : Answered}
    (h : answered.call.key ≠ key) : onKey key (history ++ [answered]) = onKey key history := by
  simp [onKey, List.filter_append, h]

theorem failuresOf_concat {history : List Answered} {answered : Answered}
    (h : answered.call.key = key) : failuresOf key (history ++ [answered]) =
      failuresOf key history ++ answered.call.failureTime.toList := by
  rw [failuresOf, onKey_concat_of_eq h, List.filterMap_append, failuresOf]
  cases htime : answered.call.failureTime <;> simp [htime]

theorem permitted_concat {history : List Answered} {answered : Answered}
    (h : answered.call.key = key) : permitted key (history ++ [answered]) =
      answered.answer.any fun answer => answer.allowed := by
  simp [permitted, onKey_concat_of_eq h]

/-- A call leaves alone what is stored for other keys. -/
theorem respond_of_ne {store : InMemoryBruteForceAttemptStore} (h : call.key ≠ key) :
    (respond thresholds store call).2 key = store key := by
  cases call with
  | check key' limit now later =>
    simp only [respond, check]
    split
    · exact Function.update_of_ne (Ne.symm h) _ _
    · rfl
  | recordFailure key' now => exact Function.update_of_ne (Ne.symm h) _ _
  | recordSuccess key' now => exact Function.update_of_ne (Ne.symm h) _ _

/-- A call answers, and stores for its key, by what is stored for the key. -/
theorem respond_congr {store store' : InMemoryBruteForceAttemptStore}
    (h : store call.key = store' call.key) :
    (respond thresholds store call).1 = (respond thresholds store' call).1 ∧
      (respond thresholds store call).2 call.key = (respond thresholds store' call).2 call.key := by
  cases call with
  | check key limit now later =>
    have hread : store.read key = store'.read key := h
    simp only [respond, check, AttemptCall.key, hread, true_and]
    by_cases hclear : remainingLockMs (store'.read key).lockedUntil now = some 0 ∧
        (store'.read key).lockedUntil ≠ none
    · rw [if_pos hclear, if_pos hclear]
      simp [InMemoryBruteForceAttemptStore.clear]
    · rw [if_neg hclear, if_neg hclear]
      exact h
  | recordFailure key now =>
    simp only [AttemptCall.key] at h ⊢
    simp [respond, recordFailure, InMemoryBruteForceAttemptStore.recordFailure,
      InMemoryBruteForceAttemptStore.read, h]
  | recordSuccess key now =>
    simp [respond, recordSuccess, InMemoryBruteForceAttemptStore.clear, AttemptCall.key]

/-! ## One key -/

/-- The failures of a key: `older` ones, before a lock that has lapsed, and the `current` ones,
which are counted. -/
structure Budget (thresholds : BruteForceThresholds) (record : AttemptRecord) (now : ℤ)
    (older current : List ℤ) : Prop where
  within : WithinBudget thresholds.baseDurationMs thresholds.threshold older
  lapsed : ∀ o ∈ older, (o : ℚ) + thresholds.baseDurationMs ≤ now
  gap : ∀ o ∈ older, ∀ c ∈ current, (o : ℚ) + thresholds.baseDurationMs ≤ c
  past : ∀ c ∈ current, c ≤ now
  counted : current.length = record.failedAttempts
  unlocked : record.lockedUntil = none → current.length < thresholds.threshold
  locked : ∀ lock, record.lockedUntil = some lock → current.length = thresholds.threshold ∧
    ∃ date, lock = .valid date ∧ ∀ c ∈ current, (c : ℚ) + thresholds.baseDurationMs ≤ date.time

namespace Budget

variable {record : AttemptRecord} {now later : ℤ} {older current : List ℤ}

/-- No more than the threshold is counted. -/
theorem length_le (h : Budget thresholds record now older current) :
    current.length ≤ thresholds.threshold := by
  cases hlock : record.lockedUntil with
  | none => exact (h.unlocked hlock).le
  | some lock => exact (h.locked lock hlock).1.le

/-- No window has more failures than the threshold. -/
theorem withinBudget (h : Budget thresholds record now older current) :
    WithinBudget thresholds.baseDurationMs thresholds.threshold (older ++ current) :=
  h.within.append h.length_le h.gap

/-- Time passes. -/
theorem wait (h : Budget thresholds record now older current) (hlater : now ≤ later) :
    Budget thresholds record later older current :=
  { h with
    lapsed := fun o ho => (h.lapsed o ho).trans (by exact_mod_cast hlater)
    past := fun c hc => (h.past c hc).trans hlater }

/-- A lock has lapsed, and the failures counted so far are older ones. -/
theorem lapse (h : Budget thresholds record now older current) (hsensible : thresholds.Sensible)
    {date : Date} (hlock : record.lockedUntil = some (.valid date)) (hend : date.time ≤ now) :
    Budget thresholds ⟨0, none⟩ now (older ++ current) [] where
  within := h.withinBudget
  lapsed := by
    intro o ho
    rcases List.mem_append.mp ho with ho | ho
    · exact h.lapsed o ho
    · obtain ⟨date', hdate, hcurrent⟩ := (h.locked _ hlock).2
      cases hdate
      exact (hcurrent o ho).trans (by exact_mod_cast hend)
  gap := nofun
  past := nofun
  counted := rfl
  unlocked := fun _ => hsensible.threshold
  locked := fun lock hlock => by cases hlock

/-- A failure is recorded below the threshold. -/
theorem fail (h : Budget thresholds record now older current) (hsensible : thresholds.Sensible)
    (hfew : current.length < thresholds.threshold)
    (hdate : thresholds.threshold ≤ record.failedAttempts + 1 →
      IsTimeValue (now + thresholds.baseDurationMs)) :
    Budget thresholds
      ⟨record.failedAttempts + 1, lockUntil thresholds (record.failedAttempts + 1) now⟩ now older
      (current ++ [now]) where
  within := h.within
  lapsed := h.lapsed
  gap := by
    intro o ho c hc
    rcases List.mem_append.mp hc with hc | hc
    · exact h.gap o ho c hc
    · rw [List.mem_singleton.mp hc]
      exact h.lapsed o ho
  past := by
    intro c hc
    rcases List.mem_append.mp hc with hc | hc
    · exact h.past c hc
    · exact (List.mem_singleton.mp hc).le
  counted := by simp [h.counted]
  unlocked := by
    intro hnone
    rw [List.length_append, List.length_singleton, h.counted]
    by_contra hmany
    have hdur := base_le_lockDurationMs hsensible (not_lt.mp hmany)
    unfold lockUntil at hnone
    dsimp only at hnone
    rw [if_neg (hsensible.base.trans_le hdur).ne'] at hnone
    cases hnone
  locked := by
    intro lock hlock
    have hmany : thresholds.threshold = record.failedAttempts + 1 := by
      rw [h.counted] at hfew
      by_contra hother
      have hlt : record.failedAttempts + 1 < thresholds.threshold := by omega
      unfold lockUntil at hlock
      dsimp only at hlock
      rw [lockDurationMs_of_lt hlt, if_pos rfl] at hlock
      cases hlock
    refine ⟨by rw [List.length_append, List.length_singleton, h.counted, hmany], ?_⟩
    have hdur : lockDurationMs (record.failedAttempts + 1) thresholds =
        thresholds.baseDurationMs := by
      rw [← hmany, lockDurationMs_threshold hsensible]
    have hdate' := hdate hmany.le
    rw [← hdur] at hdate'
    obtain ⟨date, hsame, hend⟩ :=
      exists_lockUntil (hdur.trans_ne hsensible.base.ne') hdate'
    rw [hsame] at hlock
    cases hlock
    refine ⟨date, rfl, fun c hc => ?_⟩
    rw [hend, hdur]
    have hpast : c ≤ now := by
      rcases List.mem_append.mp hc with hc | hc
      · exact h.past c hc
      · exact (List.mem_singleton.mp hc).le
    have hpast' : (c : ℚ) ≤ now := by exact_mod_cast hpast
    linarith

/-- A check lets a lapsed lock go, and allows an attempt only below the threshold. -/
theorem check {store : InMemoryBruteForceAttemptStore}
    (h : Budget thresholds (store.read key) now older current) (hsensible : thresholds.Sensible)
    (limit : Option RateLimitResult) (later : ℤ) :
    ∃ older' current', older' ++ current' = older ++ current ∧
      Budget thresholds ((BruteForce.check store key limit now later).2.read key) now
        older' current' ∧
      ((BruteForce.check store key limit now later).1.allowed = true →
        current'.length < thresholds.threshold) := by
  cases hlock : (store.read key).lockedUntil with
  | none =>
    rw [check_keeps fun hclear => hclear.2 hlock]
    exact ⟨older, current, rfl, h, fun _ => h.unlocked hlock⟩
  | some lock =>
    obtain ⟨date, rfl, -⟩ := (h.locked lock hlock).2
    have hremaining : remainingLockMs (store.read key).lockedUntil now =
        some (max (date.time - now) 0) := by rw [hlock, remainingLockMs]
    by_cases hend : date.time ≤ now
    · have hzero : max (date.time - now) 0 = 0 := max_eq_right (by omega)
      rw [check_clears (by rw [hremaining, hzero]) (by simp [hlock])]
      have hclear : (store.clear key).read key = ⟨0, none⟩ := by
        simp [InMemoryBruteForceAttemptStore.clear, InMemoryBruteForceAttemptStore.read]
      rw [hclear]
      exact ⟨older ++ current, [], List.append_nil _, h.lapse hsensible hlock hend,
        fun _ => hsensible.threshold⟩
    · have hpos : 0 < max (date.time - now) 0 := lt_max_of_lt_left (by omega)
      rw [check_keeps fun hclear => by
        rw [hremaining] at hclear
        exact hpos.ne' (Option.some.inj hclear.1)]
      refine ⟨older, current, rfl, h, fun hallowed => ?_⟩
      have hnone := remaining_of_allowed hallowed
      rw [hremaining, Option.getD_some] at hnone
      exact absurd hpos (not_lt.mpr hnone)

end Budget

/-! ## Every run -/

/-- The failures of a key are within the budget, and an attempt that is permitted would still be. -/
structure Kept (thresholds : BruteForceThresholds) (key : String) (guessing : Guessing) : Prop where
  budget : ∃ older current, failuresOf key guessing.history = older ++ current ∧
    Budget thresholds (guessing.store.read key) guessing.now older current ∧
      (permitted key guessing.history = true → current.length < thresholds.threshold)

theorem kept_start (hsensible : thresholds.Sensible) (now : ℤ) :
    Kept thresholds key (.start now) where
  budget := by
    refine ⟨[], [], rfl, ?_, fun _ => hsensible.threshold⟩
    exact
      { within := fun _ => Nat.zero_le _
        lapsed := nofun
        gap := nofun
        past := nofun
        counted := rfl
        unlocked := fun _ => hsensible.threshold
        locked := fun lock hlock => by cases hlock }

/-- What a step does. -/
theorem eq_of_step (h : guessing.step thresholds call = some next) :
    guessing.now ≤ call.now ∧ next = ⟨(respond thresholds guessing.store call).2, call.now,
      guessing.history ++ [⟨call, (respond thresholds guessing.store call).1⟩]⟩ := by
  unfold Guessing.step at h
  split at h
  · rename_i hnow
    cases h
    exact ⟨hnow, rfl⟩
  · cases h

theorem Kept.step (hsensible : thresholds.Sensible) (h : Kept thresholds key guessing)
    (hok : DisciplinedDated thresholds key guessing call)
    (hstep : guessing.step thresholds call = some next) : Kept thresholds key next := by
  obtain ⟨hnow, rfl⟩ := eq_of_step hstep
  obtain ⟨older, current, hfailures, hbudget, hpermitted⟩ := h.budget
  have hwait := hbudget.wait hnow
  by_cases hkey : call.key = key
  · refine ⟨?_⟩
    dsimp only
    rw [failuresOf_concat hkey, permitted_concat hkey, hfailures]
    cases call with
    | check key' limit now later =>
      obtain rfl : key' = key := hkey
      obtain ⟨older', current', hsame, hbudget', hallowed⟩ := hwait.check hsensible limit later
      refine ⟨older', current', ?_, hbudget', fun hpermit => hallowed ?_⟩
      · rw [hsame]
        exact List.append_nil _
      · exact hpermit
    | recordFailure key' now =>
      obtain rfl : key' = key := hkey
      have hfew := hpermitted (hok.1 rfl)
      refine ⟨older, current ++ [now], List.append_assoc _ _ _, ?_, nofun⟩
      have hrecord : (respond thresholds guessing.store (.recordFailure key' now)).2.read key' =
          ⟨(guessing.store.read key').failedAttempts + 1,
            lockUntil thresholds ((guessing.store.read key').failedAttempts + 1) now⟩ := by
        simp [respond, recordFailure, InMemoryBruteForceAttemptStore.recordFailure,
          InMemoryBruteForceAttemptStore.read]
      rw [hrecord]
      exact hwait.fail hsensible hfew (hok.2 rfl rfl)
    | recordSuccess key' now => exact absurd (hok.1 hkey) id
  · refine ⟨older, current, ?_, ?_, fun hpermit => hpermitted ?_⟩
    · rw [failuresOf, onKey_concat_of_ne hkey]
      exact hfailures
    · have hread : (respond thresholds guessing.store call).2.read key = guessing.store.read key :=
        respond_of_ne hkey
      dsimp only
      rw [hread]
      exact hwait
    · rwa [permitted, onKey_concat_of_ne hkey] at hpermit

/-! ## Calls on other keys -/

/-- A run that has made only the calls on the key, not later than the other run. -/
structure OnlyKey (key : String) (guessing alone : Guessing) : Prop where
  now : alone.now ≤ guessing.now
  store : alone.store key = guessing.store key
  history : alone.history = onKey key guessing.history

theorem onKey_onKey (history : List Answered) :
    onKey key (onKey key history) = onKey key history := by
  simp [onKey, List.filter_filter]

/-- The condition looks only at the key. -/
theorem OnlyKey.disciplinedDated {alone : Guessing} (h : OnlyKey key guessing alone)
    (hok : DisciplinedDated thresholds key guessing call) :
    DisciplinedDated thresholds key alone call := by
  constructor
  · intro hkey
    have hdisciplined := hok.1 hkey
    cases call with
    | recordFailure key' now =>
      dsimp only at hdisciplined ⊢
      rw [h.history, permitted, onKey_onKey]
      exact hdisciplined
    | check key' limit now later => trivial
    | recordSuccess key' now => exact hdisciplined
  · intro hkey hfailure hmany
    rw [InMemoryBruteForceAttemptStore.read, h.store] at hmany
    exact hok.2 hkey hfailure hmany

/-- A call on the key does the same in both runs. -/
theorem OnlyKey.step {alone : Guessing} (h : OnlyKey key guessing alone) (hkey : call.key = key)
    (hstep : guessing.step thresholds call = some next) :
    ∃ alone', alone.step thresholds call = some alone' ∧ OnlyKey key next alone' := by
  obtain ⟨hnow, rfl⟩ := eq_of_step hstep
  have hsame : alone.store call.key = guessing.store call.key := by rw [hkey, h.store]
  obtain ⟨hanswer, hstore⟩ := @respond_congr thresholds _ _ _ hsame
  rw [hkey] at hstore
  refine ⟨_, if_pos (h.now.trans hnow), le_rfl, hstore, ?_⟩
  rw [onKey_concat_of_eq hkey, h.history, hanswer]

/-- A call on another key is not noticed. -/
theorem OnlyKey.skip {alone : Guessing} (h : OnlyKey key guessing alone) (hkey : call.key ≠ key)
    (hstep : guessing.step thresholds call = some next) : OnlyKey key next alone := by
  obtain ⟨hnow, rfl⟩ := eq_of_step hstep
  refine ⟨h.now.trans hnow, h.store.trans (respond_of_ne hkey).symm, ?_⟩
  rw [onKey_concat_of_ne hkey]
  exact h.history

/-- Without the calls on other keys the calls on the key go the same way. -/
theorem exists_exec_onlyKey {calls : List AttemptCall} {final alone : Guessing}
    (h : OnlyKey key guessing alone)
    (hrun : execWhile (Guessing.step thresholds) (DisciplinedDated thresholds key) guessing calls =
      some final) :
    ∃ alone', execWhile (Guessing.step thresholds) (DisciplinedDated thresholds key) alone
        (calls.filter fun call => call.key = key) = some alone' ∧ OnlyKey key final alone' := by
  induction calls generalizing guessing alone with
  | nil =>
    cases hrun
    exact ⟨alone, rfl, h⟩
  | cons call calls ih =>
    rw [execWhile] at hrun
    split at hrun
    · rename_i hok
      obtain ⟨next, hstep, hrest⟩ := Option.bind_eq_some_iff.mp hrun
      by_cases hkey : call.key = key
      · obtain ⟨alone', hstep', h'⟩ := h.step hkey hstep
        obtain ⟨alone'', hrest', h''⟩ := ih h' hrest
        refine ⟨alone'', ?_, h''⟩
        rw [List.filter_cons_of_pos (by simpa using hkey), execWhile,
          if_pos (h.disciplinedDated hok), hstep']
        exact hrest'
      · rw [List.filter_cons_of_neg (by simpa using hkey)]
        exact ih (h.skip hkey hstep) hrest
    · cases hrun

/-! ## The budget is kept -/

/-- Two guesses, each after a check that has allowed it, with a call on another key between. -/
def sampleGuesses : List AttemptCall :=
  [.check "login:ada" none 0 0, .recordFailure "login:ada" 0, .recordFailure "login:bob" 0,
    .check "login:ada" none 1 1, .recordFailure "login:ada" 1]

/-- In a disciplined run whose locks end at the times of dates, no window has more failures of the
key than the threshold, and the calls on other keys have no effect. -/
theorem brute_force_budget {thresholds : BruteForceThresholds} (hsensible : thresholds.Sensible)
    {key : String} {now : ℤ} {calls : List AttemptCall} {final : Guessing}
    (hrun :
      execWhile (Guessing.step thresholds) (DisciplinedDated thresholds key) (.start now) calls =
      some final) :
    WithinBudget thresholds.baseDurationMs thresholds.threshold (failuresOf key final.history) ∧
      ∃ alone, execWhile (Guessing.step thresholds) (DisciplinedDated thresholds key) (.start now)
          (calls.filter fun call => call.key = key) = some alone ∧
        alone.history = onKey key final.history ∧ alone.store key = final.store key := by
  constructor
  · have hkept : Kept thresholds key final :=
      (runWhile_of_execWhile hrun).invariant (kept_start hsensible now) fun _ _ _ h hok hstep =>
        h.step hsensible hok hstep
    obtain ⟨older, current, hfailures, hbudget, -⟩ := hkept.budget
    rw [hfailures]
    exact hbudget.withinBudget
  · obtain ⟨alone, halone, honly⟩ := exists_exec_onlyKey ⟨le_rfl, rfl, rfl⟩ hrun
    exact ⟨alone, halone, honly.history, honly.store⟩

/-- Thresholds that refuse after one failure, for so many milliseconds. -/
def refuseFor (baseDurationMs : ℚ) : BruteForceThresholds := ⟨1, baseDurationMs, 1, baseDurationMs⟩

theorem refuseFor_sensible {baseDurationMs : ℚ} (h : 0 < baseDurationMs) :
    (refuseFor baseDurationMs).Sensible := ⟨le_rfl, h, le_rfl, le_rfl⟩

/-- Where the two guesses lead when a refusal lasts for one millisecond. -/
def sampleFinal : Guessing :=
  (execWhile (Guessing.step (refuseFor 1)) (DisciplinedDated (refuseFor 1) "login:ada") (.start 0)
    sampleGuesses).get (by decide +kernel)

/-- The two guesses, with refusals of one millisecond. -/
theorem brute_force_budget_sample :
    WithinBudget 1 1 (failuresOf "login:ada" sampleFinal.history) ∧
      ∃ alone, execWhile (Guessing.step (refuseFor 1)) (DisciplinedDated (refuseFor 1) "login:ada")
          (.start 0) (sampleGuesses.filter fun call => call.key = "login:ada") = some alone ∧
        alone.history = onKey "login:ada" sampleFinal.history ∧
          alone.store "login:ada" = sampleFinal.store "login:ada" :=
  brute_force_budget (refuseFor_sensible one_pos) (Option.some_get _).symm

/-- Where they lead when a refusal lasts for one and a half milliseconds. -/
def sampleExcess : Guessing :=
  (execWhile (Guessing.step (refuseFor (3 / 2))) (Disciplined "login:ada") (.start 0)
    sampleGuesses).get (by decide +kernel)

/-- A refusal of one and a half milliseconds admits two guesses in a window of that length. -/
theorem budget_exceeded_by_fraction :
    ¬ ∀ (thresholds : BruteForceThresholds) (key : String) (now : ℤ) (calls : List AttemptCall)
      (final : Guessing), thresholds.Sensible →
        execWhile (Guessing.step thresholds) (Disciplined key) (.start now) calls = some final →
          WithinBudget thresholds.baseDurationMs thresholds.threshold
            (failuresOf key final.history) := by
  intro h
  have hbudget := h (refuseFor (3 / 2)) "login:ada" 0 sampleGuesses sampleExcess
    (refuseFor_sensible (by norm_num)) (Option.some_get _).symm 0
  have htwo : (failuresOf "login:ada" sampleExcess.history).countP (inWindow (3 / 2) 0) = 2 := by
    decide +kernel
  change (failuresOf "login:ada" sampleExcess.history).countP (inWindow (3 / 2) 0) ≤ 1 at hbudget
  omega

end Verixa.BruteForce
