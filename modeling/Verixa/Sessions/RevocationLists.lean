import Verixa.Collections.Deadlines
import Verixa.Collections.OrderedMap
import Verixa.Concurrency.Throwing
import Verixa.SharedKernel.Errors

/-!
# The revocation lists

A revocation list holds sessions until given times and says of a session whether it is held.  The
list in memory drops a session that it is asked about too late; nobody can tell, as long as the
clock does not go back (`answers_inMemory`).

The list in Redis writes a key that expires.  The time to live is computed from the clock of the
process before the key is written, and other calls may come in between; still, once a revocation
has returned, the session is held until the given time (`revoked_stays_denied`), and nobody is
held whom nobody has revoked (`denied_only_revoked`).
-/

namespace Verixa

open Concurrency Deadlines FixedWindow

/-- A call of a revocation list. -/
inductive RevocationCall where
  | revoke (sessionId : String) (expiry : ℤ)
  | isRevoked (sessionId : String)
  deriving DecidableEq

/-! ## What a revocation list is for -/

/-- The sessions that were revoked, each with the time until which it was last. -/
abbrev DenyList := String → Option ℤ

/-- A call at a given time; only a check has something to say. -/
def DenyList.step (list : DenyList) : ℤ × RevocationCall → Option Bool × DenyList
  | (_, .revoke sessionId expiry) => (none, Function.update list sessionId (some expiry))
  | (now, .isRevoked sessionId) => (some (pending list sessionId now), list)

/-! ## The list in memory -/

structure InMemoryRevocationList where
  revokedUntilBySessionId : OrderedMap String ℤ

namespace InMemoryRevocationList

/-- A new list. -/
def empty : InMemoryRevocationList := ⟨OrderedMap.empty⟩

def revoke (list : InMemoryRevocationList) (sessionId : String) (expiry : ℤ) :
    InMemoryRevocationList :=
  ⟨list.revokedUntilBySessionId.set sessionId expiry⟩

/-- Looks a session up; one whose time has passed is dropped. -/
def isRevoked (list : InMemoryRevocationList) (sessionId : String) (now : ℤ) :
    Bool × InMemoryRevocationList :=
  match list.revokedUntilBySessionId.get? sessionId with
  | none => (false, list)
  | some expiry =>
    if expiry ≤ now then (false, ⟨list.revokedUntilBySessionId.erase sessionId⟩) else (true, list)

/-- A call at a given time. -/
def step (list : InMemoryRevocationList) :
    ℤ × RevocationCall → Option Bool × InMemoryRevocationList
  | (_, .revoke sessionId expiry) => (none, list.revoke sessionId expiry)
  | (now, .isRevoked sessionId) =>
    (some (list.isRevoked sessionId now).1, (list.isRevoked sessionId now).2)

/-- What the map holds. -/
def reading (list : InMemoryRevocationList) : DenyList := list.revokedUntilBySessionId.get?

@[simp] theorem reading_empty : empty.reading = fun _ => none := rfl

@[simp] theorem reading_revoke (list : InMemoryRevocationList) (sessionId : String) (expiry : ℤ) :
    (list.revoke sessionId expiry).reading =
      Function.update list.reading sessionId (some expiry) := by
  funext other
  rw [reading, revoke, OrderedMap.get?_set, Function.update_apply]
  simp only [eq_comm, reading]

/-- A check answers by what the map holds. -/
theorem isRevoked_fst (list : InMemoryRevocationList) (sessionId : String) (now : ℤ) :
    (list.isRevoked sessionId now).1 = pending list.reading sessionId now := by
  unfold isRevoked pending
  rw [reading]
  cases list.revokedUntilBySessionId.get? sessionId with
  | none => rfl
  | some expiry =>
    by_cases hpast : expiry ≤ now
    · simp [hpast]
    · simp [hpast, not_le.mp hpast]

/-- A check drops only a session whose time has passed. -/
theorem forgets_isRevoked (list : InMemoryRevocationList) (sessionId : String) (now : ℤ) :
    Forgets now list.reading (list.isRevoked sessionId now).2.reading := by
  unfold isRevoked
  split
  · exact .refl now _
  · rename_i expiry hfound
    split
    · rename_i hpast
      have hdropped : (⟨list.revokedUntilBySessionId.erase sessionId⟩ :
          InMemoryRevocationList).reading = Function.update list.reading sessionId none := by
        funext other
        rw [reading, OrderedMap.get?_erase, Function.update_apply]
        simp only [eq_comm, reading]
      rw [hdropped]
      refine Forgets.drop fun deadline hdeadline => ?_
      obtain rfl : expiry = deadline := Option.some.inj (hfound.symm.trans hdeadline)
      exact hpast
    · exact .refl now _

/-- One call: a list that has forgotten nothing of interest answers the same, and forgets nothing
of interest. -/
theorem step_forgets {list : InMemoryRevocationList} {denied : DenyList} {now : ℤ}
    (h : Forgets now denied list.reading) (call : RevocationCall) :
    (list.step (now, call)).1 = (denied.step (now, call)).1 ∧
      Forgets now (denied.step (now, call)).2 (list.step (now, call)).2.reading := by
  cases call with
  | revoke sessionId expiry =>
    refine ⟨rfl, ?_⟩
    rw [step, reading_revoke]
    exact h.update sessionId expiry
  | isRevoked sessionId =>
    refine ⟨?_, h.trans (list.forgets_isRevoked sessionId now)⟩
    rw [step, isRevoked_fst, h.pending_eq]
    rfl

/-- Along calls whose times do not go back, the list in memory answers every check by the last
revocation of the session before it. -/
theorem answers_inMemory {calls : List (ℤ × RevocationCall)}
    (hordered : (calls.map Prod.fst).Pairwise (· ≤ ·)) :
    outputs step empty calls = outputs DenyList.step (fun _ => none) calls := by
  cases calls with
  | nil => rfl
  | cons first later =>
    obtain ⟨now, call⟩ := first
    have hfrom : (now :: ((now, call) :: later).map Prod.fst).Pairwise (· ≤ ·) := by
      refine List.pairwise_cons.mpr ⟨fun time htime => ?_, hordered⟩
      rcases List.mem_cons.mp htime with rfl | htail
      · exact le_rfl
      · exact (List.pairwise_cons.mp hordered).1 time htail
    apply outputs_eq_of_timed_simulation
      (R := fun now list denied => Forgets now denied (reading list)) _ _ _ hfrom
    · exact fun _ _ _ _ hle h => h.mono hle
    · exact fun _ _ _ call h => step_forgets h call
    · exact Forgets.refl now _

/-- A session that is revoked, asked about in time, too late and again. -/
theorem answers_inMemory_dropped :
    outputs step empty [(0, .revoke "s" 10), (5, .isRevoked "s"), (10, .isRevoked "s"),
        (11, .isRevoked "s")] =
      outputs DenyList.step (fun _ => none) [(0, .revoke "s" 10), (5, .isRevoked "s"),
        (10, .isRevoked "s"), (11, .isRevoked "s")] :=
  answers_inMemory (by decide)

end InMemoryRevocationList

/-! ## The list in Redis -/

/-- The keys in Redis, each with its text and the time at which it expires, and the latest reading
of the clock. -/
structure RedisKeys where
  values : OrderedMap String (String × ℤ)
  clock : ℤ

/-- A call made by the list. -/
inductive RevocationRequest where
  /-- `Date.now()`. -/
  | now
  /-- `client.set` with `PX`. -/
  | set (key value : String) (ttlMs : ℤ)
  | get (key : String)
  deriving DecidableEq

/-- What a call is answered with. -/
def RevocationRequest.Answer : RevocationRequest → Type
  | .now => ℤ
  | .set _ _ _ => Except ThrownError Unit
  | .get _ => Except ThrownError (Option String)

/-- What the outside adds to a call: the time on the clock of Redis and, where Redis cannot be
reached, the error and whether the call was carried out all the same. -/
inductive RedisWeather where
  | served (now : ℤ)
  | unreachable (now : ℤ) (carriedOut : Bool) (error : ThrownError)

/-- The time on the clock of Redis. -/
def RedisWeather.now : RedisWeather → ℤ
  | .served now | .unreachable now _ _ => now

namespace RedisKeys

/-- Redis without any keys. -/
def empty (clock : ℤ) : RedisKeys := ⟨OrderedMap.empty, clock⟩

/-- The text under a key at a given time; an expired one is gone. -/
def textAt (keys : RedisKeys) (key : String) (now : ℤ) : Option String :=
  match keys.values.get? key with
  | none => none
  | some (value, expiresAt) => if now < expiresAt then some value else none

def moveTo (keys : RedisKeys) (now : ℤ) : RedisKeys := { keys with clock := now }

/-- Writes a key that expires. -/
def write (keys : RedisKeys) (key value : String) (expiresAt : ℤ) : RedisKeys :=
  { keys with values := keys.values.set key (value, expiresAt) }

/-- The error of a time to live that is not positive. -/
def invalidExpireTime : ThrownError := { message := "ERR invalid expire time in 'set' command" }

/-- How a call is answered; the clock of the process is ahead of that of Redis by `skew`. -/
def serve (skew : ℤ) : Server RedisKeys RedisWeather RevocationRequest RevocationRequest.Answer
  | _, keys, .now, .served now => some (now + skew, keys.moveTo now)
  | _, _, .now, .unreachable _ _ _ => none
  | _, keys, .set key value ttlMs, .served now =>
    if 0 < ttlMs then some (.ok (), (keys.moveTo now).write key value (now + ttlMs))
    else some (.error invalidExpireTime, keys.moveTo now)
  | _, keys, .set key value ttlMs, .unreachable now carriedOut error =>
    some (.error error,
      if 0 < ttlMs ∧ carriedOut then (keys.moveTo now).write key value (now + ttlMs)
      else keys.moveTo now)
  | _, keys, .get key, .served now => some (.ok (keys.textAt key now), keys.moveTo now)
  | _, keys, .get _, .unreachable now _ error => some (.error error, keys.moveTo now)

/-- The clock of Redis does not go back. -/
def ClockAdvances (_ : ℕ) (keys : RedisKeys) (_ : RevocationRequest) (ω : RedisWeather) : Prop :=
  keys.clock ≤ ω.now

instance (i : ℕ) (keys : RedisKeys) (q : RevocationRequest) (ω : RedisWeather) :
    Decidable (ClockAdvances i keys q ω) :=
  inferInstanceAs (Decidable (_ ≤ _))

end RedisKeys

structure RedisRevocationList where
  keyPrefix : String := "sessions:revoked:"

/-- What a call of the list returns or throws; a check throws nothing. -/
def RevocationCall.Answer : RevocationCall → Type
  | .revoke _ _ => Except ThrownError Unit
  | .isRevoked _ => Bool

namespace RedisRevocationList

variable (list : RedisRevocationList)

def keyFor (sessionId : String) : String := list.keyPrefix ++ sessionId

/-- Writes the key of the session, once the clock has been read. -/
def write (sessionId : String) (expiry now : ℤ) :
    ThrowingProgram RevocationRequest RevocationRequest.Answer ThrownError Unit :=
  Program.perform (RevocationRequest.set (list.keyFor sessionId) "1" (max 1 (expiry - now)))

def revoke (sessionId : String) (expiry : ℤ) :
    ThrowingProgram RevocationRequest RevocationRequest.Answer ThrownError Unit :=
  .call .now fun now => list.write sessionId expiry now

/-- What a check makes of the answer; one that fails counts as revoked. -/
def verdict : Except ThrownError (Option String) → Bool
  | .ok value => value.isSome
  | .error _ => true

def isRevoked (sessionId : String) :
    Program RevocationRequest RevocationRequest.Answer Bool :=
  .call (.get (list.keyFor sessionId)) fun answer => .ret (verdict answer)

/-- The program of a call. -/
def perform : (call : RevocationCall) →
    Program RevocationRequest RevocationRequest.Answer call.Answer
  | .revoke sessionId expiry => list.revoke sessionId expiry
  | .isRevoked sessionId => list.isRevoked sessionId

/-- Any number of calls under way at once. -/
abbrev RevocationPool :=
  Pool RedisKeys RevocationRequest RevocationRequest.Answer RevocationCall.Answer

/-- One step of the calls. -/
def step (skew : ℤ) :
    RevocationPool → PoolEvent RevocationCall RedisWeather → Option RevocationPool :=
  Pool.step (RedisKeys.serve skew) list.perform

variable {list : RedisRevocationList} {skew : ℤ} {P P' : RevocationPool} {sessionId : String}
  {expiry : ℤ}

theorem keyFor_inj {other : String} :
    list.keyFor sessionId = list.keyFor other ↔ sessionId = other := by
  unfold keyFor
  exact String.append_right_inj _

/-! ### What a step can do -/

/-- What is left of a call, when the clock of Redis stands at `clock`: a revocation that has read
the clock has done so no later. -/
def Underway (list : RedisRevocationList) (skew clock : ℤ) : (call : RevocationCall) →
    Program RevocationRequest RevocationRequest.Answer call.Answer → Prop
  | .revoke sessionId expiry, left =>
    left = list.revoke sessionId expiry ∨
      (∃ now ≤ clock + skew, left = list.write sessionId expiry now) ∨ ∃ answer, left = .ret answer
  | .isRevoked sessionId, left => left = list.isRevoked sessionId ∨ ∃ answer, left = .ret answer

/-- Every call is under way. -/
def Orderly (list : RedisRevocationList) (skew : ℤ) (P : RevocationPool) : Prop :=
  ∀ i t, P.threads i = some t → list.Underway skew P.store.clock t.command t.program

/-- The steps that answer a call: a revocation reads the clock, a revocation writes its key or
fails, and a check gets its answer. -/
inductive Answers (list : RedisRevocationList) (skew : ℤ) (P : RevocationPool) (i : ℕ)
    (ω : RedisWeather) : RevocationPool → Prop
  | read {begun : RedisKeys} {sessionId : String} {expiry : ℤ}
      (hi : P.threads i = some ⟨.revoke sessionId expiry, begun, list.revoke sessionId expiry⟩) :
      Answers list skew P i ω ⟨P.store.moveTo ω.now, Function.update P.threads i
        (some ⟨.revoke sessionId expiry, begun, list.write sessionId expiry (ω.now + skew)⟩)⟩
  | written {begun : RedisKeys} {sessionId : String} {expiry now : ℤ}
      {outcome : Except ThrownError Unit} (hnow : now ≤ P.store.clock + skew)
      (hi : P.threads i = some ⟨.revoke sessionId expiry, begun, list.write sessionId expiry now⟩) :
      Answers list skew P i ω
        ⟨(P.store.moveTo ω.now).write (list.keyFor sessionId) "1"
            (ω.now + max 1 (expiry - now)),
          Function.update P.threads i (some ⟨.revoke sessionId expiry, begun, .ret outcome⟩)⟩
  | failed {begun : RedisKeys} {sessionId : String} {expiry now : ℤ} {error : ThrownError}
      (hi : P.threads i = some ⟨.revoke sessionId expiry, begun, list.write sessionId expiry now⟩) :
      Answers list skew P i ω ⟨P.store.moveTo ω.now,
        Function.update P.threads i (some ⟨.revoke sessionId expiry, begun, .ret (.error error)⟩)⟩
  | checked {begun : RedisKeys} {sessionId : String} {answer : Except ThrownError (Option String)}
      (hi : P.threads i = some ⟨.isRevoked sessionId, begun, list.isRevoked sessionId⟩)
      (hanswer : answer = .ok (P.store.textAt (list.keyFor sessionId) ω.now) ∨
        ∃ now carriedOut error, ω = .unreachable now carriedOut error ∧ answer = .error error) :
      Answers list skew P i ω ⟨P.store.moveTo ω.now,
        Function.update P.threads i (some ⟨.isRevoked sessionId, begun, .ret (verdict answer)⟩)⟩

/-- When every call is under way, a step starts a call or is one of those that answer one. -/
theorem step_cases (horderly : list.Orderly skew P) {e : PoolEvent RevocationCall RedisWeather}
    (hadvances : P.Allows RedisKeys.ClockAdvances e) (hstep : list.step skew P e = some P') :
    (∃ i call, e = .start i call ∧ P.threads i = none ∧
      P' = ⟨P.store, Function.update P.threads i (some ⟨call, P.store, list.perform call⟩)⟩) ∨
    ∃ i ω, e = .answer i ω ∧ P.store.clock ≤ ω.now ∧ list.Answers skew P i ω P' := by
  rcases Pool.step_cases hstep with ⟨i, call, rfl, hi, rfl⟩ |
    ⟨i, ω, call, begun, q, k, r, s, rfl, hi, hserve, rfl⟩
  · exact .inl ⟨i, call, rfl, hi, rfl⟩
  · have hclock : P.store.clock ≤ ω.now := by
      simpa [Pool.Allows, hi, RedisKeys.ClockAdvances] using hadvances
    refine .inr ⟨i, ω, rfl, hclock, ?_⟩
    have hunder := horderly i _ hi
    cases call with
    | revoke sessionId expiry =>
      rcases hunder with hleft | ⟨now, hnow, hleft⟩ | ⟨answer, hleft⟩
      · cases hleft
        cases ω with
        | served now =>
          cases hserve
          exact .read hi
        | unreachable now carriedOut error => cases hserve
      · cases hleft
        have hpositive : 0 < max 1 (expiry - now) := by omega
        cases ω with
        | served time =>
          rw [RedisKeys.serve, if_pos hpositive] at hserve
          cases hserve
          exact .written hnow hi
        | unreachable time carriedOut error =>
          rw [RedisKeys.serve] at hserve
          cases hserve
          split
          · exact .written hnow hi
          · exact .failed hi
      · cases hleft
    | isRevoked sessionId =>
      rcases hunder with hleft | ⟨answer, hleft⟩
      · cases hleft
        cases ω with
        | served time =>
          cases hserve
          exact .checked hi (.inl rfl)
        | unreachable time carriedOut error =>
          cases hserve
          exact .checked hi (.inr ⟨time, carriedOut, error, rfl, rfl⟩)
      · cases hleft

/-- What a step that answers a call does to the clock and to the threads. -/
theorem Answers.clock_threads {i : ℕ} {ω : RedisWeather} (h : list.Answers skew P i ω P') :
    P'.store.clock = ω.now ∧ ∃ t t', P.threads i = some t ∧
      P'.threads = Function.update P.threads i (some t') ∧ t'.command = t.command := by
  cases h with
  | read hi => exact ⟨rfl, _, _, hi, rfl, rfl⟩
  | written _ hi => exact ⟨rfl, _, _, hi, rfl, rfl⟩
  | failed hi => exact ⟨rfl, _, _, hi, rfl, rfl⟩
  | checked hi _ => exact ⟨rfl, _, _, hi, rfl, rfl⟩

/-- What is left of a call stays so while the clock moves on. -/
theorem Underway.mono {clock later : ℤ} (hle : clock ≤ later) {call : RevocationCall}
    {left : Program RevocationRequest RevocationRequest.Answer call.Answer}
    (h : list.Underway skew clock call left) : list.Underway skew later call left := by
  cases call with
  | revoke sessionId expiry =>
    rcases h with hleft | ⟨now, hnow, hleft⟩ | hreturned
    · exact .inl hleft
    · exact .inr (.inl ⟨now, by omega, hleft⟩)
    · exact .inr (.inr hreturned)
  | isRevoked sessionId => exact h

theorem orderly_initial (keys : RedisKeys) :
    list.Orderly skew (Pool.initial keys : RevocationPool) :=
  fun i t hi => by simp [Pool.initial] at hi

/-- The thread that has moved. -/
theorem eq_of_update {α : Type*} {threads : ℕ → Option α} {i : ℕ} {t u : α}
    (h : Function.update threads i (some t) i = some u) : t = u := by
  rw [Function.update_self] at h
  exact Option.some.inj h

/-- A step that answers a call leaves a call under way. -/
theorem Answers.underway {i : ℕ} {ω : RedisWeather} (h : list.Answers skew P i ω P')
    {t : Thread RedisKeys RevocationRequest RevocationRequest.Answer RevocationCall.Answer}
    (hi : P'.threads i = some t) : list.Underway skew P'.store.clock t.command t.program := by
  cases h with
  | read _ =>
    obtain rfl := eq_of_update hi
    exact .inr (.inl ⟨_, le_rfl, rfl⟩)
  | written _ _ =>
    obtain rfl := eq_of_update hi
    exact .inr (.inr ⟨_, rfl⟩)
  | failed _ =>
    obtain rfl := eq_of_update hi
    exact .inr (.inr ⟨_, rfl⟩)
  | checked _ _ =>
    obtain rfl := eq_of_update hi
    exact .inr ⟨_, rfl⟩

/-- A step leaves every call under way. -/
theorem Orderly.step (h : list.Orderly skew P) {e : PoolEvent RevocationCall RedisWeather}
    (hadvances : P.Allows RedisKeys.ClockAdvances e) (hstep : list.step skew P e = some P') :
    list.Orderly skew P' := by
  intro j u hj
  rcases step_cases h hadvances hstep with ⟨i, call, -, -, rfl⟩ | ⟨i, ω, -, hclock, hanswers⟩
  · by_cases hji : j = i
    · subst hji
      obtain rfl := eq_of_update hj
      cases call with
      | revoke sessionId expiry => exact .inl rfl
      | isRevoked sessionId => exact .inl rfl
    · exact h j u (by simpa [hji] using hj)
  · by_cases hji : j = i
    · subst hji
      exact hanswers.underway hj
    · obtain ⟨hnow, t, t', -, hthreads, -⟩ := hanswers.clock_threads
      rw [hthreads, Function.update_of_ne hji] at hj
      exact (h j u hj).mono (by omega)

theorem orderly_of_run {keys : RedisKeys} {ok : RevocationPool →
    PoolEvent RevocationCall RedisWeather → Prop}
    (hok : ∀ P e, ok P e → P.Allows RedisKeys.ClockAdvances e)
    (hrun : RunWhile (list.step skew) ok (Pool.initial keys) P) : list.Orderly skew P :=
  hrun.invariant (orderly_initial keys) fun P e _ h hallowed hstep => h.step (hok P e hallowed) hstep

/-! ### Revoked sessions stay denied -/

/-- Redis holds the session at least until its clock stands at the given time. -/
def Holds (list : RedisRevocationList) (keys : RedisKeys) (sessionId : String) (time : ℤ) : Prop :=
  ∃ value expiresAt, keys.values.get? (list.keyFor sessionId) = some (value, expiresAt) ∧
    time ≤ expiresAt

/-- The call revokes the session to an earlier time. -/
def shortens (sessionId : String) (expiry : ℤ) : RevocationCall → Bool
  | .revoke other earlier => decide (other = sessionId ∧ earlier < expiry)
  | .isRevoked _ => false

/-- No revocation of the session to an earlier time is answered. -/
def Prolongs (sessionId : String) (expiry : ℤ) (P : RevocationPool)
    (e : PoolEvent RevocationCall RedisWeather) : Prop :=
  (P.threads e.thread).all (fun t => !shortens sessionId expiry t.command) = true

instance (sessionId : String) (expiry : ℤ) (P : RevocationPool)
    (e : PoolEvent RevocationCall RedisWeather) : Decidable (Prolongs sessionId expiry P e) :=
  inferInstanceAs (Decidable (_ = true))

/-- What writing a key does to the sessions that are held. -/
theorem holds_write_iff {keys : RedisKeys} {other value : String} {expiresAt time : ℤ} :
    list.Holds (keys.write (list.keyFor other) value expiresAt) sessionId time ↔
      if other = sessionId then time ≤ expiresAt else list.Holds keys sessionId time := by
  unfold Holds RedisKeys.write
  rw [OrderedMap.get?_set]
  by_cases hsame : other = sessionId
  · subst hsame
    simp
  · simp [hsame, keyFor_inj]

theorem holds_moveTo {keys : RedisKeys} {now time : ℤ} (h : list.Holds keys sessionId time) :
    list.Holds (keys.moveTo now) sessionId time := h

/-- The time to live reaches the given time, however long after the reading the key is written. -/
theorem le_expiresAt {clock now time : ℤ} (hread : now ≤ clock + skew) (hclock : clock ≤ time) :
    expiry - skew ≤ time + max 1 (expiry - now) := by omega

/-- A session that is held stays held, unless it is revoked to an earlier time. -/
theorem Holds.step (hheld : list.Holds P.store sessionId (expiry - skew))
    (horderly : list.Orderly skew P) {e : PoolEvent RevocationCall RedisWeather}
    (hadvances : P.Allows RedisKeys.ClockAdvances e) (hprolongs : Prolongs sessionId expiry P e)
    (hstep : list.step skew P e = some P') :
    list.Holds P'.store sessionId (expiry - skew) := by
  rcases step_cases horderly hadvances hstep with ⟨i, call, -, -, rfl⟩ |
    ⟨i, ω, rfl, hclock, hanswers⟩
  · exact hheld
  · cases hanswers with
    | read _ => exact holds_moveTo hheld
    | failed _ => exact holds_moveTo hheld
    | checked _ _ => exact holds_moveTo hheld
    | @written _ other later now _ hnow hi =>
      rw [holds_write_iff]
      split
      · rename_i hsame
        subst hsame
        have hlater : expiry ≤ later := by
          simpa [Prolongs, PoolEvent.thread, hi, shortens] using hprolongs
        have hreaches : later - skew ≤ ω.now + max 1 (later - now) := le_expiresAt hnow hclock
        omega
      · exact holds_moveTo hheld

/-- When a revocation returns, its session is held. -/
theorem holds_of_returned {i : ℕ} {ω : RedisWeather} (horderly : list.Orderly skew P)
    (hadvances : P.Allows RedisKeys.ClockAdvances (.answer i ω))
    (hstep : list.step skew P (.answer i ω) = some P')
    (hreturned : P'.returned i = some ⟨.revoke sessionId expiry, .ok ()⟩) :
    list.Holds P'.store sessionId (expiry - skew) := by
  obtain ⟨begun, hi'⟩ := Pool.threads_of_returned hreturned
  rcases step_cases horderly hadvances hstep with ⟨j, call, he, -⟩ |
    ⟨j, ω', he, hclock, hanswers⟩
  · cases he
  · cases he
    cases hanswers with
    | read _ =>
      have hleft := eq_of_update hi'
      cases hleft
    | failed _ =>
      have hleft := eq_of_update hi'
      cases hleft
    | checked _ _ =>
      have hleft := eq_of_update hi'
      cases hleft
    | written hnow _ =>
      have hleft := eq_of_update hi'
      cases hleft
      rw [holds_write_iff, if_pos rfl]
      exact le_expiresAt hnow hclock

/-- A session that Redis holds at the time of the reading is there. -/
theorem isSome_textAt {keys : RedisKeys} {time now : ℤ} (h : list.Holds keys sessionId time)
    (hnow : now < time) : (keys.textAt (list.keyFor sessionId) now).isSome = true := by
  obtain ⟨value, expiresAt, hfound, htime⟩ := h
  rw [RedisKeys.textAt, hfound]
  simp [show now < expiresAt by omega]

/-- The checks of the session that were begun after some pool have not been answered that it is
not revoked, unless the given time has come. -/
def DeniesSince (list : RedisRevocationList) (P : RevocationPool) (sessionId : String) (time : ℤ)
    (P' : RevocationPool) : Prop :=
  ∀ j begun left, P.threads j = none →
    P'.threads j = some ⟨.isRevoked sessionId, begun, left⟩ →
      left = list.isRevoked sessionId ∨ left = .ret true ∨ time ≤ P'.store.clock

/-- While the session is held, checks keep being answered that it is revoked. -/
theorem DeniesSince.step {P₀ : RevocationPool} {time : ℤ}
    (h : list.DeniesSince P₀ sessionId time P) (hheld : list.Holds P.store sessionId time)
    (horderly : list.Orderly skew P) {e : PoolEvent RevocationCall RedisWeather}
    (hadvances : P.Allows RedisKeys.ClockAdvances e) (hstep : list.step skew P e = some P') :
    list.DeniesSince P₀ sessionId time P' := by
  intro j begun left hnew hj
  rcases step_cases horderly hadvances hstep with ⟨i, call, -, -, rfl⟩ |
    ⟨i, ω, -, hclock, hanswers⟩
  · by_cases hji : j = i
    · subst hji
      have hthread := eq_of_update hj
      cases hthread
      exact .inl rfl
    · exact h j begun left hnew (by simpa [hji] using hj)
  · by_cases hji : j = i
    · subst hji
      cases hanswers with
      | read _ => cases eq_of_update hj
      | written _ _ => cases eq_of_update hj
      | failed _ => cases eq_of_update hj
      | checked _ hanswer =>
        cases eq_of_update hj
        rcases lt_or_ge ω.now time with hearly | hlate
        · refine .inr (.inl ?_)
          rcases hanswer with rfl | ⟨now, carriedOut, error, -, rfl⟩
          · rw [verdict, isSome_textAt hheld hearly]
          · rfl
        · exact .inr (.inr hlate)
    · obtain ⟨hnow, t, t', -, hthreads, -⟩ := hanswers.clock_threads
      rw [hthreads, Function.update_of_ne hji] at hj
      rcases h j begun left hnew hj with hleft | htrue | htime
      · exact .inl hleft
      · exact .inr (.inl htrue)
      · exact .inr (.inr (by omega))

/-- Once a revocation has returned, every check begun later answers that the session is revoked
until the clock of the process stands at the given time: whatever other calls do, in whatever order
they are answered, however late the key was written, and whether or not Redis can be reached; only
revoking the session anew to an earlier time is left out. -/
theorem revoked_stays_denied {keys : RedisKeys} {P₀ : RevocationPool} {i : ℕ} {ω : RedisWeather}
    (hbefore : RunWhile (list.step skew) (fun P e => P.Allows RedisKeys.ClockAdvances e)
      (Pool.initial keys) P₀)
    (hadvances : P₀.Allows RedisKeys.ClockAdvances (.answer i ω))
    (hstep : list.step skew P₀ (.answer i ω) = some P)
    (hreturned : P.returned i = some ⟨.revoke sessionId expiry, .ok ()⟩)
    (hafter : RunWhile (list.step skew)
      (fun P e => P.Allows RedisKeys.ClockAdvances e ∧ Prolongs sessionId expiry P e) P P')
    {j : ℕ} {answer : Bool} (hlater : P.threads j = none)
    (hanswer : P'.returned j = some ⟨.isRevoked sessionId, answer⟩) :
    answer = true ∨ expiry ≤ P'.store.clock + skew := by
  have horderly₀ : list.Orderly skew P₀ := orderly_of_run (fun _ _ h => h) hbefore
  have hkept : list.Orderly skew P' ∧ list.Holds P'.store sessionId (expiry - skew) ∧
      list.DeniesSince P sessionId (expiry - skew) P' := by
    refine hafter.invariant (I := fun T => list.Orderly skew T ∧
      list.Holds T.store sessionId (expiry - skew) ∧
        list.DeniesSince P sessionId (expiry - skew) T) ⟨horderly₀.step hadvances hstep,
      holds_of_returned horderly₀ hadvances hstep hreturned, fun k begun left hnone hsome =>
        absurd (hnone.symm.trans hsome) (by simp)⟩ ?_
    rintro T e T' ⟨horderly, hheld, hdenies⟩ ⟨hclock, hprolongs⟩ hT
    exact ⟨horderly.step hclock hT, hheld.step horderly hclock hprolongs hT,
      hdenies.step hheld horderly hclock hT⟩
  obtain ⟨begun, hj⟩ := Pool.threads_of_returned hanswer
  rcases hkept.2.2 j begun _ hlater hj with hleft | htrue | htime
  · cases hleft
  · cases htrue
    exact .inl rfl
  · exact .inr (by omega)

/-- The clock is read at 10, and the key written at 20. -/
def sampleReading : RevocationPool :=
  (execWhile (step {} 5) (fun P e => P.Allows RedisKeys.ClockAdvances e)
    (Pool.initial (RedisKeys.empty 0))
    [.start 0 (.revoke "s" 100), .answer 0 (.served 10)]).get (by decide +kernel)

@[inherit_doc sampleReading]
def sampleRevoked : RevocationPool :=
  (step {} 5 sampleReading (.answer 0 (.served 20))).get (by decide +kernel)

/-- The session is revoked anew, but Redis cannot be reached, and then asked about. -/
def sampleChecked : RevocationPool :=
  (execWhile (step {} 5) (fun P e => P.Allows RedisKeys.ClockAdvances e ∧ Prolongs "s" 100 P e)
    sampleRevoked
    [.start 1 (.revoke "s" 200), .answer 1 (.served 30),
      .answer 1 (.unreachable 80 false { message := "ECONNREFUSED" }),
      .start 2 (.isRevoked "s"), .answer 2 (.served 90)]).get (by decide +kernel)

/-- The check denies the session, at 95 on the clock of the process. -/
theorem revoked_stays_denied_checked :
    ∃ answer, sampleChecked.returned 2 = some ⟨.isRevoked "s", answer⟩ ∧
      (answer = true ∨ 100 ≤ sampleChecked.store.clock + 5) :=
  ⟨true, by rfl, @revoked_stays_denied {} 5 sampleRevoked sampleChecked "s" 100
    (RedisKeys.empty 0) sampleReading 0 (.served 20) (runWhile_get _) (by decide +kernel)
    (Option.some_get _).symm (by rfl) (runWhile_get _) 2 true (by rfl) (by rfl)⟩

/-! ### Nobody else is denied -/

/-- Redis answers every check. -/
def Reached (_ : ℕ) (_ : RedisKeys) : RevocationRequest → RedisWeather → Prop
  | .get _, .unreachable _ _ _ => False
  | _, _ => True

/-- Somebody has called for the session to be revoked. -/
def CalledFor (P : RevocationPool) (sessionId : String) : Prop :=
  ∃ i t expiry, P.threads i = some t ∧ t.command = .revoke sessionId expiry

/-- What has been called for stays called for. -/
theorem CalledFor.step (h : CalledFor P sessionId) (horderly : list.Orderly skew P)
    {e : PoolEvent RevocationCall RedisWeather} (hadvances : P.Allows RedisKeys.ClockAdvances e)
    (hstep : list.step skew P e = some P') : CalledFor P' sessionId := by
  obtain ⟨i, t, expiry, hi, hcommand⟩ := h
  rcases step_cases horderly hadvances hstep with ⟨j, call, -, hj, rfl⟩ | ⟨j, ω, -, -, hanswers⟩
  · refine ⟨i, t, expiry, ?_, hcommand⟩
    have hij : i ≠ j := by
      rintro rfl
      exact absurd (hj.symm.trans hi) (by simp)
    simpa [hij] using hi
  · obtain ⟨-, u, u', hj, hthreads, hsame⟩ := hanswers.clock_threads
    by_cases hij : i = j
    · subst hij
      obtain rfl : t = u := Option.some.inj (hi.symm.trans hj)
      exact ⟨i, u', expiry, by rw [hthreads, Function.update_self], hsame.trans hcommand⟩
    · exact ⟨i, t, expiry, by rw [hthreads, Function.update_of_ne hij, hi], hcommand⟩

/-- Only what was called for is in Redis, and only that is denied. -/
structure Warranted (list : RedisRevocationList) (sessionId : String) (P : RevocationPool) :
    Prop where
  stored : P.store.values.get? (list.keyFor sessionId) ≠ none → CalledFor P sessionId
  denied : ∀ j begun, P.threads j = some ⟨.isRevoked sessionId, begun, .ret true⟩ →
    CalledFor P sessionId

/-- A step that answers a call writes only what was called for. -/
theorem Warranted.stored_of_answers (h : list.Warranted sessionId P) {i : ℕ} {ω : RedisWeather}
    (hanswers : list.Answers skew P i ω P')
    (hstored : P'.store.values.get? (list.keyFor sessionId) ≠ none) : CalledFor P sessionId := by
  cases hanswers with
  | read _ => exact h.stored hstored
  | failed _ => exact h.stored hstored
  | checked _ _ => exact h.stored hstored
  | @written _ other expiry _ _ _ hi =>
    by_cases hsame : other = sessionId
    · subst hsame
      exact ⟨i, _, expiry, hi, rfl⟩
    · apply h.stored
      simpa [RedisKeys.write, RedisKeys.moveTo, OrderedMap.get?_set, keyFor_inj, hsame]
        using hstored

/-- A check that Redis answers denies only what is in Redis. -/
theorem Warranted.denied_of_answers (h : list.Warranted sessionId P) {i : ℕ} {ω : RedisWeather}
    (hreached : P.Allows Reached (.answer i ω : PoolEvent RevocationCall RedisWeather))
    (hanswers : list.Answers skew P i ω P') {begun : RedisKeys}
    (hi : P'.threads i = some ⟨.isRevoked sessionId, begun, .ret true⟩) :
    CalledFor P sessionId := by
  cases hanswers with
  | read _ => cases eq_of_update hi
  | written _ _ => cases eq_of_update hi
  | failed _ => cases eq_of_update hi
  | @checked _ _ answer hthread hanswer =>
    generalize hverdict : verdict answer = denied at hi
    cases eq_of_update hi
    rcases hanswer with rfl | ⟨now, carriedOut, error, rfl, -⟩
    · apply h.stored
      intro hnone
      rw [RedisKeys.textAt, hnone] at hverdict
      cases hverdict
    · rw [Pool.Allows, hthread] at hreached
      exact hreached.elim

/-- One step writes only what was called for, and denies only what is in Redis. -/
theorem Warranted.step (h : list.Warranted sessionId P) (horderly : list.Orderly skew P)
    {e : PoolEvent RevocationCall RedisWeather} (hadvances : P.Allows RedisKeys.ClockAdvances e)
    (hreached : P.Allows Reached e) (hstep : list.step skew P e = some P') :
    list.Warranted sessionId P' := by
  have hkeeps : CalledFor P sessionId → CalledFor P' sessionId :=
    fun hcalled => hcalled.step horderly hadvances hstep
  rcases step_cases horderly hadvances hstep with ⟨i, call, -, -, rfl⟩ |
    ⟨i, ω, rfl, -, hanswers⟩
  · refine ⟨fun hstored => hkeeps (h.stored hstored), fun j begun hj => ?_⟩
    by_cases hji : j = i
    · subst hji
      cases eq_of_update hj
    · exact hkeeps (h.denied j begun (by simpa [hji] using hj))
  · refine ⟨fun hstored => hkeeps (h.stored_of_answers hanswers hstored), fun j begun hj => ?_⟩
    by_cases hji : j = i
    · subst hji
      exact hkeeps (h.denied_of_answers hreached hanswers hj)
    · obtain ⟨-, u, u', -, hthreads, -⟩ := hanswers.clock_threads
      rw [hthreads, Function.update_of_ne hji] at hj
      exact hkeeps (h.denied j begun hj)

/-- As long as Redis answers, a session is denied only if somebody has called for that. -/
theorem denied_only_revoked {keys : RedisKeys}
    (hfresh : keys.values.get? (list.keyFor sessionId) = none)
    (hrun : RunWhile (list.step skew)
      (fun P e => P.Allows RedisKeys.ClockAdvances e ∧ P.Allows Reached e) (Pool.initial keys) P)
    {j : ℕ} (hdenied : P.returned j = some ⟨.isRevoked sessionId, true⟩) :
    CalledFor P sessionId := by
  have hkept : list.Orderly skew P ∧ list.Warranted sessionId P := by
    refine hrun.invariant (I := fun T => list.Orderly skew T ∧ list.Warranted sessionId T)
      ⟨orderly_initial keys, fun hstored => absurd hfresh hstored, fun j begun hj => ?_⟩ ?_
    · cases hj
    · rintro T e T' ⟨horderly, hwarranted⟩ ⟨hclock, hreached⟩ hT
      exact ⟨horderly.step hclock hT, hwarranted.step horderly hclock hreached hT⟩
  obtain ⟨begun, hj⟩ := Pool.threads_of_returned hdenied
  exact hkept.2.denied j begun hj

end RedisRevocationList

end Verixa
