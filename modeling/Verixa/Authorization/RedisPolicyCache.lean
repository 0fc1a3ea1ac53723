import Verixa.Authorization.InMemoryPolicyCache
import Verixa.Concurrency.Journal
import Verixa.SharedKernel.Errors

/-!
# The policy cache in Redis

The generations are counters in the store, and the slot of a key embeds those that were read when
the operation began: an operation on a key makes a first round trip for the generations and a second
one for the slot, and other operations may come between.

The store is a map from keys to counters and to texts that expire.  Every call says which key it is
about; this and the journal are kept for what is said about runs, and read by nothing else.
-/

namespace Verixa.Authorization

open Concurrency Encoding

variable {ν : Type}

/-! ## The store -/

/-- A value in the store. -/
inductive RedisValue where
  | integer (n : ℕ)
  | text (value : String) (expiresAt : ℚ)
  deriving DecidableEq

/-- The store, and what has been done with the cache in it. -/
structure RedisStore (ν : Type) where
  values : OrderedMap String RedisValue
  journal : CacheJournal ν

/-- A call made by the cache. -/
inductive RedisRequest (ν : Type) where
  | mget (global resource : String) (about : PolicyCacheKey)
  | get (slot : String) (about : PolicyCacheKey)
  | set (slot text : String) (seconds : ℤ) (about : PolicyCacheKey) (entry : CachedPolicy ν)
    (ttlSeconds : ℚ)
  | del (slot : String) (about : PolicyCacheKey)
  /-- Increments a counter: that of a resource type, or the global one. -/
  | incr (counter : String) (resourceType : Option String)

/-- What a call is answered with. -/
def RedisRequest.Answer : RedisRequest ν → Type
  | .mget _ _ _ => Option String × Option String
  | .get _ _ => Option String
  | .set _ _ _ _ _ _ => Unit
  | .del _ _ => Unit
  | .incr _ _ => Except ThrownError Unit

/-- A program over these calls. -/
abbrev RedisProgram (ν : Type) := Program (RedisRequest ν) RedisRequest.Answer

/-- The value under a key at a given time, as a text; an expired one is gone. -/
def textAt (values : OrderedMap String RedisValue) (key : String) (now : ℚ) : Option String :=
  match values.get? key with
  | none => none
  | some (.integer n) => some (Nat.repr n)
  | some (.text value expiresAt) => if now < expiresAt then some value else none

namespace RedisStore

/-- The store without anything in it. -/
def empty : RedisStore ν := ⟨OrderedMap.empty, []⟩

/-- Add a deed of thread `i` to the journal. -/
def note (s : RedisStore ν) (i : ℕ) (deed : CacheDeed ν) : RedisStore ν :=
  { s with journal := (i, deed) :: s.journal }

/-- The counter under a key; a key without value counts from zero, and the texts written here are
no integers. -/
def counterAt (values : OrderedMap String RedisValue) (key : String) (now : ℚ) : Option ℕ :=
  match values.get? key with
  | none => some 0
  | some (.integer n) => some n
  | some (.text _ expiresAt) => if now < expiresAt then none else some 0

/-- How a call of thread `i` is answered at a given time. -/
def serve : Server (RedisStore ν) ℚ (RedisRequest ν) RedisRequest.Answer
  | i, s, .mget global resource about, now =>
    some ((textAt s.values global now, textAt s.values resource now), s.note i (.looked about))
  | i, s, .get slot about, now => some (textAt s.values slot now, s.note i (.answered about now))
  | i, s, .set slot text seconds about entry ttlSeconds, now =>
    some ((), { s with values := s.values.set slot (.text text (now + seconds * 1000)) }.note i
      (.wrote slot about entry ttlSeconds now))
  | i, s, .del slot about, _ =>
    some ((), { s with values := s.values.erase slot }.note i (.deleted slot about))
  | i, s, .incr counter resourceType, now =>
    match counterAt s.values counter now with
    | none => some (.error { message := "ERR value is not an integer or out of range" }, s)
    | some n =>
      some (.ok (), { s with values := s.values.set counter (.integer (n + 1)) }.note i
        (match resourceType with
          | some resourceType => .advancedType resourceType
          | none => .advancedAll))

end RedisStore

/-! ## The cache -/

/-- Turns entries into texts and back. -/
structure PolicyJson (ν : Type) where
  stringify : CachedPolicy ν → String
  parse : String → Option (CachedPolicy ν)

/-- The entry survives being turned into a text and back. -/
def PolicyJson.Serializable (json : PolicyJson ν) (entry : CachedPolicy ν) : Prop :=
  json.parse (json.stringify entry) = some entry

structure RedisPolicyCache (ν : Type) where
  json : PolicyJson ν
  keyPrefix : String := "policy:cache:"
  defaultTtlSeconds : ℚ := DEFAULT_POLICY_CACHE_TTL_SECONDS

namespace RedisPolicyCache

variable (cache : RedisPolicyCache ν)

def generationKey (resourceType : String) : String := cache.keyPrefix ++ "gen:" ++ resourceType

def globalGenerationKey : String := cache.keyPrefix ++ "gen:"

def entryKey (key : PolicyCacheKey) (generations : String) : String :=
  cache.keyPrefix ++ "entry:" ++ generations ++ ":" ++ key.resourceType ++ ":" ++ key.action

/-- `redis.mget` of the two generations. -/
def mget (global resource : String) (about : PolicyCacheKey) :
    RedisProgram ν (Option String × Option String) :=
  Program.perform (RedisRequest.mget global resource about)

/-- `redis.get`. -/
def redisGet (slot : String) (about : PolicyCacheKey) : RedisProgram ν (Option String) :=
  Program.perform (RedisRequest.get slot about)

/-- `redis.set` with `EX`. -/
def redisSet (slot text : String) (seconds : ℤ) (about : PolicyCacheKey) (entry : CachedPolicy ν)
    (ttlSeconds : ℚ) : RedisProgram ν Unit :=
  Program.perform (RedisRequest.set slot text seconds about entry ttlSeconds)

/-- `redis.del`. -/
def del (slot : String) (about : PolicyCacheKey) : RedisProgram ν Unit :=
  Program.perform (RedisRequest.del slot about)

/-- `redis.incr`. -/
def incr (counter : String) (resourceType : Option String) :
    RedisProgram ν (Except ThrownError Unit) :=
  Program.perform (RedisRequest.incr counter resourceType)

/-- The generations of a key, as a text. -/
def currentGenerations (key : PolicyCacheKey) : RedisProgram ν String := do
  let (global, resource) ← mget cache.globalGenerationKey (cache.generationKey key.resourceType) key
  return global.getD "0" ++ ":" ++ resource.getD "0"

/-- What an operation answers; only a read has something to say. -/
abbrev CacheAnswer (ν : Type) := Except ThrownError (Option (CachedPolicy ν))

/-- Reads the entry of a key; a text that is no entry is deleted. -/
def get (key : PolicyCacheKey) : RedisProgram ν (CacheAnswer ν) := do
  let generations ← cache.currentGenerations key
  match ← redisGet (cache.entryKey key generations) key with
  | none => return .ok none
  | some text =>
    match cache.json.parse text with
    | some entry => return .ok (some entry)
    | none => do
      del (cache.entryKey key generations) key
      return .ok none

/-- Writes an entry; one that could never be read is not written. -/
def set (key : PolicyCacheKey) (entry : CachedPolicy ν) (ttlSeconds : Option ℚ) :
    RedisProgram ν (CacheAnswer ν) :=
  let ttl := ttlSeconds.getD cache.defaultTtlSeconds
  if ttl ≤ 0 then return .ok none
  else do
    let generations ← cache.currentGenerations key
    redisSet (cache.entryKey key generations) (cache.json.stringify entry) ⌈ttl⌉ key entry ttl
    return .ok none

/-- Deletes the entry of a key. -/
def invalidate (key : PolicyCacheKey) : RedisProgram ν (CacheAnswer ν) := do
  let generations ← cache.currentGenerations key
  del (cache.entryKey key generations) key
  return .ok none

/-- Advances the generation of a resource type. -/
def invalidateResourceType (resourceType : String) : RedisProgram ν (CacheAnswer ν) := do
  let answer ← incr (cache.generationKey resourceType) (some resourceType)
  return answer.map fun _ => none

/-- Advances the global generation. -/
def invalidateAll : RedisProgram ν (CacheAnswer ν) := do
  let answer ← incr cache.globalGenerationKey none
  return answer.map fun _ => none

/-- The program of an operation. -/
def perform : CacheOperation ν → RedisProgram ν (CacheAnswer ν)
  | .get key => cache.get key
  | .set key entry ttlSeconds => cache.set key entry ttlSeconds
  | .invalidate key => cache.invalidate key
  | .invalidateResourceType resourceType => cache.invalidateResourceType resourceType
  | .invalidateAll => cache.invalidateAll

/-- Any number of operations at work on one store. -/
abbrev RedisPool (ν : Type) := Pool (RedisStore ν) (RedisRequest ν) RedisRequest.Answer
  fun _ : CacheOperation ν => CacheAnswer ν

/-- One step of the operations. -/
def step : RedisPool ν → PoolEvent (CacheOperation ν) ℚ → Option (RedisPool ν) :=
  Pool.step RedisStore.serve cache.perform

end RedisPolicyCache

end Verixa.Authorization
