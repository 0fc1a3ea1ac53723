import Verixa.Api.Idempotency
import Verixa.Collections.FixedWindow
import Verixa.Encoding.Json

/-!
# The rate limit of the API

`RateLimiterStore.consume` counts a call in the window of its key, in memory or in Redis, and the
`onRequest` hook refuses a request whose call is not allowed.  Redis keeps a counter under a key
until the time at which the key expires; from then on there is no such key.  The commands of a call
run at one time.

Both stores do what a counter for each key does that remembers the start of its window
(`consume_simulates`), so that they return the same and count in windows of fixed width
(`consume_fixed_window`).  The key of a request is made of parts that the client chooses, and
`passed_le_iff` says when the limit holds for the requests of a client all the same.
-/

namespace Verixa.Api

open Encoding FixedWindow

/-! ## The stores -/

/-- What a call of the store returns. -/
structure RateLimitConsumption where
  allowed : Bool
  remaining : ℤ
  resetAt : ℤ
  retryAfterSeconds : ℤ
  deriving DecidableEq

/-- An entry of the store in memory. -/
structure RateLimitEntry where
  count : ℕ
  resetAt : ℤ
  deriving DecidableEq

/-- A counter in Redis, with the time at which its key expires, if it does. -/
structure RedisCounter where
  value : ℕ
  expireAt : Option ℤ
  deriving DecidableEq

/-- The counters in Redis, with those that have expired and are not yet removed. -/
abbrev RedisCounters := String → Option RedisCounter

namespace RedisCounters

/-- What there is under a key. -/
def get (redis : RedisCounters) (now : ℤ) (key : String) : Option RedisCounter :=
  (redis key).filter fun counter => counter.expireAt.all (now < ·)

/-- `INCR key`. -/
def incr (redis : RedisCounters) (now : ℤ) (key : String) : ℕ × RedisCounters :=
  match redis.get now key with
  | some counter =>
    (counter.value + 1,
      Function.update redis key (some { counter with value := counter.value + 1 }))
  | none => (1, Function.update redis key (some ⟨1, none⟩))

/-- `PTTL key`. -/
def pttl (redis : RedisCounters) (now : ℤ) (key : String) : ℤ :=
  match redis.get now key with
  | some ⟨_, some expireAt⟩ => expireAt - now
  | some ⟨_, none⟩ => -1
  | none => -2

/-- `PEXPIRE key milliseconds`. -/
def pexpire (redis : RedisCounters) (now : ℤ) (key : String) (milliseconds : ℤ) : RedisCounters :=
  match redis.get now key with
  | some counter =>
    Function.update redis key (some { counter with expireAt := some (now + milliseconds) })
  | none => redis

end RedisCounters

/-- `RateLimiterStore`: the entries in memory, and the counters in Redis if there is one. -/
structure RateLimiterStore where
  memoryStore : String → Option RateLimitEntry
  redis : Option RedisCounters

namespace RateLimiterStore

/-- Milliseconds as whole seconds, rounded up. -/
def ceilSeconds (milliseconds : ℤ) : ℤ := ⌈(milliseconds : ℚ) / 1000⌉

/-- `consume` in memory. -/
def consumeInMemory (memoryStore : String → Option RateLimitEntry) (key : String)
    (limit windowMs : ℕ) (now : ℤ) :
    RateLimitConsumption × (String → Option RateLimitEntry) :=
  let fresh :=
    (⟨decide (1 ≤ limit), max 0 (limit - 1), now + windowMs, ceilSeconds windowMs⟩,
      Function.update memoryStore key (some ⟨1, now + windowMs⟩))
  match memoryStore key with
  | none => fresh
  | some entry =>
    if entry.resetAt ≤ now then fresh
    else
      let count := entry.count + 1
      let pttl := max 0 (entry.resetAt - now)
      (⟨decide (count ≤ limit), max 0 (limit - count), entry.resetAt, max 1 (ceilSeconds pttl)⟩,
        Function.update memoryStore key (some ⟨count, entry.resetAt⟩))

/-- `consume` in Redis. -/
def consumeInRedis (redis : RedisCounters) (key : String) (limit windowMs : ℕ) (now : ℤ) :
    RateLimitConsumption × RedisCounters :=
  let redisKey := "ratelimit:" ++ key
  let (count, redis) := redis.incr now redisKey
  let pttl := redis.pttl now redisKey
  -- a counter that is new, or has lost its expiry, gets one
  let renew := count = 1 ∨ pttl < 0
  let redis := if renew then redis.pexpire now redisKey windowMs else redis
  let pttl := if renew then (windowMs : ℤ) else pttl
  (⟨decide (count ≤ limit), max 0 (limit - count), now + max 0 pttl,
    max 1 (ceilSeconds pttl)⟩, redis)

/-- `consume`, where `executed` says whether Redis has executed the transaction. -/
def consume (store : RateLimiterStore) (key : String) (limit windowMs : ℕ) (now : ℤ)
    (executed : Bool) : RateLimitConsumption × RateLimiterStore :=
  match store.redis, executed with
  | some redis, true =>
    let (result, redis) := consumeInRedis redis key limit windowMs now
    (result, { store with redis := some redis })
  | _, _ =>
    let (result, memoryStore) := consumeInMemory store.memoryStore key limit windowMs now
    (result, { store with memoryStore })

theorem consume_memory (memoryStore : String → Option RateLimitEntry) (key : String)
    (limit windowMs : ℕ) (now : ℤ) (executed : Bool) :
    consume ⟨memoryStore, none⟩ key limit windowMs now executed =
      ((consumeInMemory memoryStore key limit windowMs now).1,
        ⟨(consumeInMemory memoryStore key limit windowMs now).2, none⟩) := rfl

theorem consume_redis (memoryStore : String → Option RateLimitEntry) (redis : RedisCounters)
    (key : String) (limit windowMs : ℕ) (now : ℤ) :
    consume ⟨memoryStore, some redis⟩ key limit windowMs now true =
      ((consumeInRedis redis key limit windowMs now).1,
        ⟨memoryStore, some (consumeInRedis redis key limit windowMs now).2⟩) := rfl

/-- A store that nothing has been counted in. -/
def Fresh (store : RateLimiterStore) : Prop :=
  (∀ key, store.memoryStore key = none) ∧
    ∀ redis ∈ store.redis, ∀ key, redis ("ratelimit:" ++ key) = none

/-- What a run of calls returns, with every transaction executed. -/
def run (limit windowMs : ℕ) (store : RateLimiterStore) (calls : List (String × ℤ)) :
    List RateLimitConsumption :=
  outputs (fun store call => consume store call.1 limit windowMs call.2 true) store calls

/-! ## Both stores are counters for each key -/

/-- The answer to the call of a rank in the window from a start on. -/
def answer (limit windowMs : ℕ) (now : ℤ) (call : ℤ × ℕ) : RateLimitConsumption :=
  ⟨decide (call.2 ≤ limit), max 0 (limit - call.2), call.1 + windowMs,
    max 1 (ceilSeconds (call.1 + windowMs - now))⟩

/-- A counter of a key, with the answers to its calls. -/
def counter (limit windowMs : ℕ) (state : Option (ℤ × ℕ)) (now : ℤ) :
    RateLimitConsumption × Option (ℤ × ℕ) :=
  let (call, state) := windowStep (windowMs : ℤ) state now
  (answer limit windowMs now call, state)

/-- A window as an entry in memory. -/
def entryOf (windowMs : ℕ) (window : ℤ × ℕ) : RateLimitEntry := ⟨window.2, window.1 + windowMs⟩

/-- A window as a counter in Redis. -/
def redisCounterOf (windowMs : ℕ) (window : ℤ × ℕ) : RedisCounter :=
  ⟨window.2, some (window.1 + windowMs)⟩

/-- The store has counted what the counters have, and they have counted something. -/
def Counts (windowMs : ℕ) (store : RateLimiterStore) (counters : String → Option (ℤ × ℕ)) : Prop :=
  (∀ key, ∀ window ∈ counters key, 0 < window.2) ∧
    match store.redis with
    | none => ∀ key, store.memoryStore key = (counters key).map (entryOf windowMs)
    | some redis =>
      ∀ key, redis ("ratelimit:" ++ key) = (counters key).map (redisCounterOf windowMs)

variable {limit windowMs : ℕ} {now : ℤ}

/-- Some time is at least one second when rounded up. -/
theorem one_le_ceilSeconds {milliseconds : ℤ} (h : 0 < milliseconds) :
    1 ≤ ceilSeconds milliseconds := by
  have hpos : (0 : ℚ) < (milliseconds : ℚ) / 1000 := by
    have hcast : (0 : ℚ) < milliseconds := by exact_mod_cast h
    positivity
  exact Int.ceil_pos.mpr hpos

/-- A counter begins a window. -/
theorem counter_begin {state : Option (ℤ × ℕ)}
    (h : ∀ window ∈ state, window.1 + windowMs ≤ now) :
    counter limit windowMs state now = (answer limit windowMs now (now, 1), some (now, 1)) := by
  rcases state with _ | ⟨start, count⟩
  · rfl
  · have hover : start + (windowMs : ℤ) ≤ now := h _ rfl
    rw [counter, windowStep, if_pos hover]

/-- A counter goes on in its window. -/
theorem counter_continue {start : ℤ} {count : ℕ} (h : now < start + windowMs) :
    counter limit windowMs (some (start, count)) now =
      (answer limit windowMs now (start, count + 1), some (start, count + 1)) := by
  rw [counter, windowStep, if_neg h.not_ge]

/-- The store in memory does what the counter of the key does. -/
theorem consumeInMemory_eq (hwindow : 0 < windowMs)
    {memoryStore : String → Option RateLimitEntry} {key : String} {state : Option (ℤ × ℕ)}
    (h : memoryStore key = state.map (entryOf windowMs)) :
    consumeInMemory memoryStore key limit windowMs now =
      ((counter limit windowMs state now).1, Function.update memoryStore key
        ((counter limit windowMs state now).2.map (entryOf windowMs))) := by
  have hfresh : answer limit windowMs now (now, 1) =
      ⟨decide (1 ≤ limit), max 0 (limit - 1), now + windowMs, ceilSeconds windowMs⟩ := by
    have hone : 1 ≤ ceilSeconds windowMs := one_le_ceilSeconds (by omega)
    rw [answer, add_sub_cancel_left, max_eq_right hone, Nat.cast_one]
  rw [consumeInMemory, h]
  rcases state with _ | ⟨start, count⟩
  · rw [counter_begin (by simp), hfresh]
    rfl
  · rcases le_or_gt (start + (windowMs : ℤ)) now with hover | hin
    · rw [counter_begin (by simpa using hover), hfresh]
      exact if_pos hover
    · rw [counter_continue hin, answer]
      have hpttl : max 0 (start + (windowMs : ℤ) - now) = start + windowMs - now :=
        max_eq_right (by omega)
      refine (if_neg hin.not_ge).trans ?_
      simp only [entryOf, hpttl, Option.map_some]
      rfl

/-- An expired counter is not there. -/
theorem get_redisCounterOf {redis : RedisCounters} {key : String} {state : Option (ℤ × ℕ)}
    (h : redis key = state.map (redisCounterOf windowMs))
    (hover : ∀ window ∈ state, window.1 + windowMs ≤ now) : redis.get now key = none := by
  rw [RedisCounters.get, h]
  rcases state with _ | ⟨start, count⟩
  · rfl
  · have hover' : start + (windowMs : ℤ) ≤ now := hover _ rfl
    simp [redisCounterOf, hover']

/-- What has just been written is there, unless it has expired. -/
theorem get_update {redis : RedisCounters} {key : String} {written : RedisCounter}
    (h : written.expireAt.all (now < ·) = true) :
    RedisCounters.get (Function.update redis key (some written)) now key = some written := by
  rw [RedisCounters.get, Function.update_self, Option.filter_some, if_pos h]

/-- Redis does what the counter of the key does. -/
theorem consumeInRedis_eq (hwindow : 0 < windowMs) {redis : RedisCounters} {key : String}
    {state : Option (ℤ × ℕ)}
    (hcounted : ∀ window ∈ state, 0 < window.2)
    (h : redis ("ratelimit:" ++ key) = state.map (redisCounterOf windowMs)) :
    consumeInRedis redis key limit windowMs now =
      ((counter limit windowMs state now).1, Function.update redis ("ratelimit:" ++ key)
        ((counter limit windowMs state now).2.map (redisCounterOf windowMs))) := by
  by_cases hover : ∀ window ∈ state, window.1 + windowMs ≤ now
  · have hget := get_redisCounterOf h hover
    have hwritten := @get_update now redis ("ratelimit:" ++ key) ⟨1, none⟩ rfl
    have hwindow' : max 0 (windowMs : ℤ) = windowMs := max_eq_right (by omega)
    rw [counter_begin hover, answer, add_sub_cancel_left]
    simp only [consumeInRedis, RedisCounters.incr, RedisCounters.pexpire, hget, hwritten,
      Function.update_idem, true_or, if_true, hwindow']
    rfl
  · obtain ⟨⟨start, count⟩, rfl, hin⟩ : ∃ window, state = some window ∧
        now < window.1 + windowMs := by
      push Not at hover
      exact hover
    have hcount : 0 < count := hcounted _ rfl
    have halive : (redisCounterOf windowMs (start, count)).expireAt.all (now < ·) = true :=
      decide_eq_true hin
    have hget : redis.get now ("ratelimit:" ++ key) =
        some ⟨count, some (start + windowMs)⟩ := by
      rw [RedisCounters.get, h, Option.map_some, Option.filter_some, if_pos halive]
      rfl
    have hwritten := @get_update now redis ("ratelimit:" ++ key)
      ⟨count + 1, some (start + windowMs)⟩ halive
    have hrenew : ¬ (count + 1 = 1 ∨ start + (windowMs : ℤ) - now < 0) := by omega
    have hpttl : max 0 (start + (windowMs : ℤ) - now) = start + windowMs - now :=
      max_eq_right (by omega)
    rw [counter_continue hin, answer]
    simp only [consumeInRedis, RedisCounters.incr, RedisCounters.pttl, hget, hwritten,
      if_neg hrenew, hpttl, add_sub_cancel]
    rfl

/-- A call does what the counter of its key does, and leaves the other counters alone. -/
theorem consume_simulates (hwindow : 0 < windowMs) {store : RateLimiterStore}
    {counters : String → Option (ℤ × ℕ)} (h : Counts windowMs store counters) (key : String) :
    (consume store key limit windowMs now true).1 =
        (forEachKey (counter limit windowMs) counters (key, now)).1 ∧
      Counts windowMs (consume store key limit windowMs now true).2
        (forEachKey (counter limit windowMs) counters (key, now)).2 := by
  have hcounted := h.1 key
  have hnext : ∀ k, ∀ window ∈
      (forEachKey (counter limit windowMs) counters (key, now)).2 k, 0 < window.2 := by
    intro k window hk
    rcases eq_or_ne k key with rfl | hne
    · rw [forEachKey_snd_self] at hk
      by_cases hover : ∀ window ∈ counters k, window.1 + windowMs ≤ now
      · rw [counter_begin hover] at hk
        obtain rfl := Option.some.inj hk
        exact Nat.one_pos
      · push Not at hover
        obtain ⟨⟨start, count⟩, hstate, hin⟩ := hover
        rw [hstate, counter_continue hin] at hk
        obtain rfl := Option.some.inj hk
        exact Nat.succ_pos count
    · rw [forEachKey_snd_of_ne _ _ hne] at hk
      exact h.1 k window hk
  obtain ⟨memoryStore, _ | redis⟩ := store
  · have hstep := @consumeInMemory_eq limit windowMs now hwindow memoryStore key _ (h.2 key)
    rw [consume_memory, hstep]
    refine ⟨rfl, hnext, fun k => ?_⟩
    rcases eq_or_ne k key with rfl | hne
    · rw [forEachKey_snd_self]
      exact Function.update_self ..
    · rw [forEachKey_snd_of_ne _ _ hne]
      exact (Function.update_of_ne hne ..).trans (h.2 k)
  · have hstep := @consumeInRedis_eq limit windowMs now hwindow redis key _ hcounted (h.2 key)
    rw [consume_redis, hstep]
    refine ⟨rfl, hnext, fun k => ?_⟩
    rcases eq_or_ne k key with rfl | hne
    · rw [forEachKey_snd_self]
      exact Function.update_self ..
    · have hredisKey : "ratelimit:" ++ k ≠ "ratelimit:" ++ key := by
        intro heq
        exact hne (String.append_right_inj _ |>.mp heq)
      rw [forEachKey_snd_of_ne _ _ hne]
      exact (Function.update_of_ne hredisKey ..).trans (h.2 k)

/-- From a fresh store on a run is that of a counter for each key. -/
theorem run_eq (hwindow : 0 < windowMs) {store : RateLimiterStore} (h : store.Fresh)
    (calls : List (String × ℤ)) :
    run limit windowMs store calls =
      outputs (forEachKey (counter limit windowMs)) (fun _ => none) calls := by
  have hcounts : Counts windowMs store fun _ => none := by
    refine ⟨by simp, ?_⟩
    obtain ⟨memoryStore, _ | redis⟩ := store
    · exact h.1
    · exact h.2 redis rfl
  exact outputs_eq_of_simulation (R := Counts windowMs)
    (fun _ _ call hcounted => consume_simulates hwindow hcounted call.1) hcounts calls

/-- What a run answers to the calls of a key. -/
theorem atKey_run (hwindow : 0 < windowMs) {store : RateLimiterStore} (h : store.Fresh)
    (calls : List (String × ℤ)) (key : String) :
    atKey key ((calls.map Prod.fst).zip (run limit windowMs store calls)) =
      outputs (counter limit windowMs) none (atKey key calls) := by
  rw [run_eq hwindow h, outputs_forEachKey]

/-! ## Fixed windows -/

/-- Whether the call was allowed, and how many are left. -/
def verdict (result : RateLimitConsumption) : Bool × ℤ := (result.allowed, result.remaining)

/-- The verdict on the call of a rank in its window. -/
def verdictOn (limit rank : ℕ) : Bool × ℤ := (decide (rank ≤ limit), max 0 (limit - rank))

/-- The verdicts of a counter depend on the ranks alone. -/
theorem map_verdict_outputs (times : List ℤ) (state : Option (ℤ × ℕ)) :
    (outputs (counter limit windowMs) state times).map verdict =
      ((outputs (windowStep (windowMs : ℤ)) state times).map Prod.snd).map (verdictOn limit) := by
  rw [List.map_map, ← outputs_map, ← outputs_map]
  rfl

/-- Both stores return the same, and cut the calls of each key into windows in each of which just
the first calls up to the limit are allowed. -/
theorem consume_fixed_window (hwindow : 0 < windowMs) {redis : RedisCounters}
    (hempty : ∀ key, redis ("ratelimit:" ++ key) = none) {calls : List (String × ℤ)}
    (hclock : (calls.map Prod.snd).Pairwise (· ≤ ·)) :
    run limit windowMs ⟨fun _ => none, none⟩ calls =
        run limit windowMs ⟨fun _ => none, some redis⟩ calls ∧
      ∀ key, ∃ windows, IsCut (windowMs : ℤ) (atKey key calls) windows ∧
        (atKey key ((calls.map Prod.fst).zip
            (run limit windowMs ⟨fun _ => none, none⟩ calls))).map verdict =
          windows.flatMap fun window => (List.range window.length).map fun rank : ℕ =>
            (decide (rank < limit), max 0 ((limit : ℤ) - (rank + 1))) := by
  have hmemory : Fresh ⟨fun _ => none, none⟩ := ⟨fun _ => rfl, by simp⟩
  have hredis : Fresh ⟨fun _ => none, some redis⟩ := ⟨fun _ => rfl, by simpa using hempty⟩
  refine ⟨by rw [run_eq hwindow hmemory, run_eq hwindow hredis], fun key => ?_⟩
  have hsorted : (atKey key calls).Pairwise (· ≤ ·) :=
    hclock.sublist (List.filter_sublist.map Prod.snd)
  have hpositive : (0 : ℤ) < windowMs := by exact_mod_cast hwindow
  obtain ⟨windows, hcut, houtputs⟩ := exists_cut_outputs hpositive hsorted
  refine ⟨windows, hcut, ?_⟩
  rw [atKey_run hwindow hmemory, map_verdict_outputs, houtputs, List.map_flatMap, List.map_flatMap]
  refine List.flatMap_congr fun window _ => ?_
  rw [map_snd_ranks, List.map_map]
  refine List.map_congr_left fun rank _ => ?_
  simp [verdictOn]

/-- Two calls in one window, and calls at its end and behind it. -/
def boundaryCalls : List (String × ℤ) := [("a", 0), ("a", 9), ("b", 9), ("a", 10), ("b", 25)]

theorem consume_fixed_window_boundaryCalls :
    run 1 10 ⟨fun _ => none, none⟩ boundaryCalls =
        run 1 10 ⟨fun _ => none, some fun _ => none⟩ boundaryCalls ∧
      ∀ key, ∃ windows, IsCut ((10 : ℕ) : ℤ) (atKey key boundaryCalls) windows ∧
        (atKey key ((boundaryCalls.map Prod.fst).zip
            (run 1 10 ⟨fun _ => none, none⟩ boundaryCalls))).map verdict =
          windows.flatMap fun window => (List.range window.length).map fun rank : ℕ =>
            (decide (rank < 1), max 0 (((1 : ℕ) : ℤ) - (rank + 1))) :=
  consume_fixed_window (by decide) (fun _ => rfl) (by decide)

/-- Of the calls of a key in one window those up to the limit are allowed. -/
theorem countP_allowed_counter {times : List ℤ}
    (h : ∀ first ∈ times, ∀ t ∈ times, t < first + windowMs) :
    (outputs (counter limit windowMs) none times).countP RateLimitConsumption.allowed =
      min limit times.length := by
  have hverdicts := @map_verdict_outputs limit windowMs times none
  rw [map_snd_outputs_of_within fun first hfirst =>
    h first (List.mem_of_mem_head? hfirst)] at hverdicts
  have hcount : (outputs (counter limit windowMs) none times).countP
      RateLimitConsumption.allowed = (List.range times.length).countP (· < limit) := by
    have hallowed : RateLimitConsumption.allowed = Prod.fst ∘ verdict := rfl
    rw [hallowed, ← List.countP_map, hverdicts, List.countP_map, List.countP_map]
    rfl
  rw [hcount, countP_range_lt]

/-- Of calls in one window each key is allowed those up to the limit. -/
theorem countP_allowed_run (hwindow : 0 < windowMs) {store : RateLimiterStore} (h : store.Fresh)
    {calls : List (String × ℤ)}
    (hwithin : ∀ first ∈ calls, ∀ call ∈ calls, call.2 < first.2 + windowMs) :
    (run limit windowMs store calls).countP RateLimitConsumption.allowed =
      ∑ key ∈ (calls.map Prod.fst).toFinset, min limit (atKey key calls).length := by
  have hlength : (run limit windowMs store calls).length = (calls.map Prod.fst).length := by
    rw [run, length_outputs, List.length_map]
  have hlabelled : (((calls.map Prod.fst).zip (run limit windowMs store calls)).map Prod.snd) =
      run limit windowMs store calls := List.map_snd_zip hlength.le
  have hkeys : ∀ entry ∈ (calls.map Prod.fst).zip (run limit windowMs store calls),
      entry.1 ∈ (calls.map Prod.fst).toFinset := fun entry hentry =>
    List.mem_toFinset.mpr (List.of_mem_zip hentry).1
  rw [← hlabelled, countP_eq_sum_atKey _ hkeys]
  refine Finset.sum_congr rfl fun key _ => ?_
  rw [atKey_run hwindow h]
  refine countP_allowed_counter fun first hfirst t ht => ?_
  obtain ⟨⟨_, first⟩, hfirst', rfl⟩ := List.mem_map.mp hfirst
  obtain ⟨⟨_, t⟩, ht', rfl⟩ := List.mem_map.mp ht
  exact hwithin _ (List.mem_of_mem_filter hfirst') _ (List.mem_of_mem_filter ht')

end RateLimiterStore

/-! ## The hook -/

/-- What the hook reads of a request. -/
structure FastifyRequest where
  url : String
  /-- `x-user-id` -/
  userId : HeaderValue
  /-- `x-api-key` -/
  apiKey : HeaderValue
  ip : String

/-- `config.rateLimit` of a route. -/
structure RouteRateLimit where
  max : Option ℕ
  timeWindowMs : Option ℕ
  identifier : Option (FastifyRequest → String)

/-- `RateLimitPluginOptions`, with the client for Redis in the store. -/
structure RateLimitPluginOptions where
  defaultMax : Option ℕ
  defaultTimeWindowMs : Option ℕ

/-- The reply of the hook: its headers, and the error that it has been sent with, if any. -/
structure RateLimitReply where
  headers : List (String × String)
  error : Option (String × String)
  deriving DecidableEq

/-- A header that is a text and not empty. -/
def usableText : HeaderValue → Option String
  | .text value => if value = "" then none else some value
  | _ => none

/-- Whom a request is counted for. -/
def principalId (request : FastifyRequest) : String :=
  match usableText request.userId with
  | some user => "user:" ++ user
  | none =>
    match usableText request.apiKey with
    | some apiKey => "apikey:" ++ apiKey
    | none => "ip:" ++ request.ip

section Hook

variable (options : RateLimitPluginOptions) (routeConfig : Option RouteRateLimit)

/-- The limit of a route. -/
def routeMax : ℕ :=
  (routeConfig.bind RouteRateLimit.max).getD (options.defaultMax.getD 100)

/-- The window of a route. -/
def routeWindowMs : ℕ :=
  (routeConfig.bind RouteRateLimit.timeWindowMs).getD (options.defaultTimeWindowMs.getD 60000)

/-- The key that a request is counted under. -/
def rateLimitKey (request : FastifyRequest) : String :=
  match routeConfig.bind RouteRateLimit.identifier with
  | some identifier => identifier request
  | none => request.url ++ ":" ++ principalId request

/-- A whole number as a header. -/
def headerNumber (n : ℤ) : String := String.ofList (Json.wholeText n)

/-- The `onRequest` hook. -/
def onRequest (store : RateLimiterStore) (request : FastifyRequest) (now : ℤ) (executed : Bool) :
    RateLimitReply × RateLimiterStore :=
  let max := routeMax options routeConfig
  let (result, store) := store.consume (rateLimitKey routeConfig request) max
    (routeWindowMs options routeConfig) now executed
  let headers := [("X-RateLimit-Limit", headerNumber max),
    ("X-RateLimit-Remaining", headerNumber result.remaining),
    ("X-RateLimit-Reset", headerNumber (RateLimiterStore.ceilSeconds result.resetAt))]
  if result.allowed then (⟨headers, none⟩, store)
  else
    (⟨headers ++ [("Retry-After", headerNumber result.retryAfterSeconds)],
      some ("RATE_LIMITED", "Rate limit exceeded. Please retry later.")⟩, store)

/-- The replies to requests to one route. -/
def replies (store : RateLimiterStore) (requests : List (FastifyRequest × ℤ)) :
    List RateLimitReply :=
  outputs (fun store request => onRequest options routeConfig store request.1 request.2 true) store
    requests

/-- The request has passed. -/
def RateLimitReply.passed (reply : RateLimitReply) : Bool := reply.error.isNone

/-- The time lies in the window counted from the first request. -/
def inFirstWindow (requests : List (FastifyRequest × ℤ)) (now : ℤ) : Bool :=
  requests.head?.all fun first => now < first.2 + routeWindowMs options routeConfig

/-- The requests in the window counted from the first one. -/
def firstWindow (requests : List (FastifyRequest × ℤ)) : List FastifyRequest :=
  (requests.filter fun request => inFirstWindow options routeConfig requests request.2).map Prod.fst

/-- How many requests pass in the window counted from the first one. -/
def passedInFirstWindow (store : RateLimiterStore) (requests : List (FastifyRequest × ℤ)) : ℕ :=
  ((requests.zip (replies options routeConfig store requests)).filter fun entry =>
    inFirstWindow options routeConfig requests entry.1.2 && entry.2.passed).length

/-- The call that a request makes. -/
def callOf (request : FastifyRequest × ℤ) : String × ℤ :=
  (rateLimitKey routeConfig request.1, request.2)

variable {options routeConfig}

/-- The hook moves the store as the call of the request does, and lets the request pass if the call
is allowed. -/
theorem onRequest_spec (store : RateLimiterStore) (request : FastifyRequest × ℤ) :
    let call := store.consume (callOf routeConfig request).1 (routeMax options routeConfig)
      (routeWindowMs options routeConfig) (callOf routeConfig request).2 true
    let reply := onRequest options routeConfig store request.1 request.2 true
    reply.1.passed = call.1.allowed ∧ reply.2 = call.2 := by
  rw [onRequest, callOf]
  generalize store.consume _ _ _ _ _ = call
  dsimp only
  split
  · rename_i hallowed
    exact ⟨hallowed.symm, rfl⟩
  · rename_i hrefused
    exact ⟨(Bool.eq_false_of_not_eq_true hrefused).symm, rfl⟩

/-- Which replies let the request pass. -/
theorem map_passed_replies (store : RateLimiterStore) (requests : List (FastifyRequest × ℤ)) :
    (replies options routeConfig store requests).map RateLimitReply.passed =
      (RateLimiterStore.run (routeMax options routeConfig) (routeWindowMs options routeConfig) store
        (requests.map (callOf routeConfig))).map RateLimitConsumption.allowed := by
  rw [RateLimiterStore.run, outputs_comp, replies, ← outputs_map, ← outputs_map]
  congr 1
  funext store request
  exact Prod.ext (onRequest_spec store request).1 (onRequest_spec store request).2

/-- Only the requests in the first window count for what passes there. -/
theorem passedInFirstWindow_eq (store : RateLimiterStore) {requests : List (FastifyRequest × ℤ)}
    (hclock : (requests.map Prod.snd).Pairwise (· ≤ ·)) :
    passedInFirstWindow options routeConfig store requests =
      (replies options routeConfig store (requests.filter fun request =>
        inFirstWindow options routeConfig requests request.2)).countP RateLimitReply.passed := by
  unfold passedInFirstWindow replies
  refine length_filter_zip_outputs (p := fun request : FastifyRequest × ℤ =>
    inFirstWindow options routeConfig requests request.2) ?_
  rcases hrequests : requests with _ | ⟨first, later⟩
  · rfl
  · rw [hrequests] at hclock
    exact filter_lt_eq_takeWhile hclock

/-- At most so many requests as the limit says pass in the window counted from the first one if the
limit is zero, if there are no more of them, or if they have one key. -/
theorem passed_le_iff {store : RateLimiterStore} (hfresh : store.Fresh)
    (hwindow : 0 < routeWindowMs options routeConfig) {requests : List (FastifyRequest × ℤ)}
    (hclock : (requests.map Prod.snd).Pairwise (· ≤ ·)) :
    passedInFirstWindow options routeConfig store requests ≤ routeMax options routeConfig ↔
      routeMax options routeConfig = 0 ∨
        (firstWindow options routeConfig requests).length ≤ routeMax options routeConfig ∨
        ∀ request ∈ firstWindow options routeConfig requests,
          ∀ other ∈ firstWindow options routeConfig requests,
            rateLimitKey routeConfig request = rateLimitKey routeConfig other := by
  let early := requests.filter fun request =>
    inFirstWindow options routeConfig requests request.2
  let calls := early.map (callOf routeConfig)
  let keys := (calls.map Prod.fst).toFinset
  have hwithin : ∀ first ∈ calls, ∀ call ∈ calls,
      call.2 < first.2 + routeWindowMs options routeConfig := by
    intro first hfirst call hcall
    obtain ⟨request, hrequest, rfl⟩ := List.mem_map.mp hfirst
    obtain ⟨other, hother, rfl⟩ := List.mem_map.mp hcall
    obtain ⟨hmem, -⟩ := List.mem_filter.mp hrequest
    obtain ⟨-, hin⟩ := List.mem_filter.mp hother
    rcases hrequests : requests with _ | ⟨head, later⟩
    · rw [hrequests] at hmem
      cases hmem
    · rw [hrequests] at hmem hin hclock
      have hin' : other.2 < head.2 + routeWindowMs options routeConfig := of_decide_eq_true hin
      have hhead : head.2 ≤ request.2 := by
        rcases List.mem_cons.mp hmem with rfl | hlater
        · exact le_rfl
        · exact (List.pairwise_cons.mp hclock).1 _ (List.mem_map_of_mem hlater)
      exact hin'.trans_le (Int.add_le_add_right hhead _)
  have hpassed : passedInFirstWindow options routeConfig store requests =
      ∑ key ∈ keys, min (routeMax options routeConfig) (atKey key calls).length := by
    have hcount : (replies options routeConfig store early).countP RateLimitReply.passed =
        (RateLimiterStore.run (routeMax options routeConfig) (routeWindowMs options routeConfig)
          store calls).countP RateLimitConsumption.allowed := by
      have hmap := congrArg (List.countP id)
        (@map_passed_replies options routeConfig store early)
      rwa [List.countP_map, List.countP_map] at hmap
    rw [passedInFirstWindow_eq store hclock, hcount,
      RateLimiterStore.countP_allowed_run hwindow hfresh hwithin]
  have hlength : (firstWindow options routeConfig requests).length =
      ∑ key ∈ keys, (atKey key calls).length := by
    have hmem : ∀ call ∈ calls, call.1 ∈ keys := fun call hcall =>
      List.mem_toFinset.mpr (List.mem_map_of_mem hcall)
    have hsum := countP_eq_sum_atKey (fun _ => true) hmem
    simp only [List.countP_true, List.length_map, calls] at hsum
    rw [firstWindow, List.length_map]
    exact hsum
  have hpositive : ∀ key ∈ keys, 0 < (atKey key calls).length := by
    intro key hkey
    obtain ⟨call, hcall, rfl⟩ := List.mem_map.mp (List.mem_toFinset.mp hkey)
    refine List.length_pos_of_mem (a := call.2) (List.mem_map.mpr ⟨call, ?_, rfl⟩)
    exact List.mem_filter.mpr ⟨hcall, decide_eq_true rfl⟩
  have hkeys : (∀ key ∈ keys, ∀ key' ∈ keys, key = key') ↔
      ∀ request ∈ firstWindow options routeConfig requests,
        ∀ other ∈ firstWindow options routeConfig requests,
          rateLimitKey routeConfig request = rateLimitKey routeConfig other := by
    have hmem : ∀ key, key ∈ keys ↔
        ∃ request ∈ firstWindow options routeConfig requests,
          rateLimitKey routeConfig request = key := by
      intro key
      simp only [keys, calls, early, firstWindow, callOf, List.mem_toFinset, List.map_map,
        List.mem_map, exists_exists_and_eq_and, Function.comp_apply]
    constructor
    · intro h request hrequest other hother
      exact h _ ((hmem _).mpr ⟨request, hrequest, rfl⟩) _ ((hmem _).mpr ⟨other, hother, rfl⟩)
    · intro h key hkey key' hkey'
      obtain ⟨request, hrequest, rfl⟩ := (hmem key).mp hkey
      obtain ⟨other, hother, rfl⟩ := (hmem key').mp hkey'
      exact h request hrequest other hother
  rw [hpassed, hlength, ← hkeys, sum_min_le_iff hpositive]

end Hook

/-- A client that changes its query. -/
def queryRequests : List (FastifyRequest × ℤ) :=
  [(⟨"/auth/login?1", .absent, .absent, "203.0.113.7"⟩, 0),
    (⟨"/auth/login?2", .absent, .absent, "203.0.113.7"⟩, 1)]

/-- The limits of a route that allows one request a minute. -/
def oneRequest : RouteRateLimit := ⟨some 1, none, none⟩

theorem passed_le_iff_queryRequests :
    passedInFirstWindow ⟨none, none⟩ (some oneRequest) ⟨fun _ => none, none⟩ queryRequests ≤
        routeMax ⟨none, none⟩ (some oneRequest) ↔
      routeMax ⟨none, none⟩ (some oneRequest) = 0 ∨
        (firstWindow ⟨none, none⟩ (some oneRequest) queryRequests).length ≤
          routeMax ⟨none, none⟩ (some oneRequest) ∨
        ∀ request ∈ firstWindow ⟨none, none⟩ (some oneRequest) queryRequests,
          ∀ other ∈ firstWindow ⟨none, none⟩ (some oneRequest) queryRequests,
            rateLimitKey (some oneRequest) request = rateLimitKey (some oneRequest) other :=
  passed_le_iff ⟨fun _ => rfl, by simp⟩ (by decide) (by decide)

/-- Both its requests pass. -/
theorem not_passed_le_queryRequests :
    ¬ passedInFirstWindow ⟨none, none⟩ (some oneRequest) ⟨fun _ => none, none⟩ queryRequests ≤
      routeMax ⟨none, none⟩ (some oneRequest) := by
  decide

end Verixa.Api
