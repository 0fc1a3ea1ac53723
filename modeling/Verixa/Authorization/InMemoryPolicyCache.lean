import Verixa.Authorization.PolicyCache
import Verixa.Collections.OrderedMap
import Verixa.Concurrency.Run
import Verixa.Encoding.Text

/-!
# The policy cache in memory

One map of entries, one map of generations and a global generation.  The slot of a key joins the
generations, the resource type and the action by delimiters, so that two keys share a slot when
joining their resource types and actions by the delimiter gives the same text.  For a key that is
alone with its text, every answer is current (`InMemoryPolicyCache.answer_current`).

The journal is kept for what is said about runs, and read by nothing else.
-/

namespace Verixa.Authorization

open Encoding

/-- `${resourceType}${delimiter}${action}`. -/
def PolicyCacheKey.joined (delimiter : String) (key : PolicyCacheKey) : String :=
  key.resourceType ++ delimiter ++ key.action

/-- No other key that was written is joined to the same text. -/
def Unambiguous {ν : Type} (delimiter : String) (journal : CacheJournal ν) (key : PolicyCacheKey) :
    Prop :=
  ∀ key', (∃ d ∈ journal, d.2.writes key' = true) →
    key'.joined delimiter = key.joined delimiter → key' = key

/-- TTL of an entry that is written without one, in seconds. -/
def DEFAULT_POLICY_CACHE_TTL_SECONDS : ℚ := 300

/-! ## The cache -/

/-- An entry as the map keeps it. -/
structure StoredEntry (ν : Type) where
  value : ν
  policyVersion : String
  cachedAt : String
  expiresAt : ℚ
  deriving DecidableEq

structure InMemoryPolicyCache (ν : Type) where
  entries : OrderedMap String (StoredEntry ν)
  generations : OrderedMap String ℕ
  globalGeneration : ℕ
  defaultTtlSeconds : ℚ
  journal : CacheJournal ν

namespace InMemoryPolicyCache

variable {ν : Type}

/-- A new cache. -/
def empty (defaultTtlSeconds : ℚ) : InMemoryPolicyCache ν where
  entries := OrderedMap.empty
  generations := OrderedMap.empty
  globalGeneration := 0
  defaultTtlSeconds := defaultTtlSeconds
  journal := []

/-- Add the deeds of the next operation to the journal, the latest first. -/
def note (cache : InMemoryPolicyCache ν) (deeds : List (CacheDeed ν)) : InMemoryPolicyCache ν :=
  { cache with journal := deeds.map (Prod.mk cache.journal.length) ++ cache.journal }

def generationFor (cache : InMemoryPolicyCache ν) (resourceType : String) : ℕ :=
  (cache.generations.get? resourceType).getD 0

/-- `${global}:${resource}`. -/
def generationText (generations : ℕ × ℕ) : String :=
  Nat.repr generations.1 ++ ":" ++ Nat.repr generations.2

def generationOf (cache : InMemoryPolicyCache ν) (resourceType : String) : String :=
  generationText (cache.globalGeneration, cache.generationFor resourceType)

/-- `${generation}|${resourceType}|${action}`. -/
def entryKey (cache : InMemoryPolicyCache ν) (key : PolicyCacheKey) : String :=
  cache.generationOf key.resourceType ++ "|" ++ key.resourceType ++ "|" ++ key.action

/-- Reads the entry of a key; an expired one is dropped. -/
def get (cache : InMemoryPolicyCache ν) (key : PolicyCacheKey) (now : ℚ) :
    Option (CachedPolicy ν) × InMemoryPolicyCache ν :=
  match cache.entries.get? (cache.entryKey key) with
  | none => (none, cache.note [.answered key now])
  | some stored =>
    if stored.expiresAt ≤ now then
      (none, { cache with entries := cache.entries.erase (cache.entryKey key) }.note
        [.answered key now])
    else
      (some { value := stored.value, policyVersion := stored.policyVersion,
              cachedAt := stored.cachedAt }, cache.note [.answered key now])

/-- Writes an entry; one that could never be read is not written. -/
def set (cache : InMemoryPolicyCache ν) (key : PolicyCacheKey) (entry : CachedPolicy ν)
    (ttlSeconds : Option ℚ) (now : ℚ) : InMemoryPolicyCache ν :=
  let ttl := ttlSeconds.getD cache.defaultTtlSeconds
  if ttl ≤ 0 then cache
  else
    let stored : StoredEntry ν :=
      { value := entry.value, policyVersion := entry.policyVersion, cachedAt := entry.cachedAt,
        expiresAt := now + ttl * 1000 }
    { cache with entries := cache.entries.set (cache.entryKey key) stored }.note
      [.wrote (cache.entryKey key) key entry ttl now, .looked key]

/-- Deletes the entry of a key. -/
def invalidate (cache : InMemoryPolicyCache ν) (key : PolicyCacheKey) : InMemoryPolicyCache ν :=
  { cache with entries := cache.entries.erase (cache.entryKey key) }.note
    [.deleted (cache.entryKey key) key, .looked key]

/-- Advances the generation of a resource type. -/
def invalidateResourceType (cache : InMemoryPolicyCache ν) (resourceType : String) :
    InMemoryPolicyCache ν :=
  let next := cache.generationFor resourceType + 1
  { cache with generations := cache.generations.set resourceType next }.note
    [.advancedType resourceType]

/-- Advances the global generation. -/
def invalidateAll (cache : InMemoryPolicyCache ν) : InMemoryPolicyCache ν :=
  { cache with globalGeneration := cache.globalGeneration + 1 }.note [.advancedAll]

end InMemoryPolicyCache

/-- An operation on a policy cache. -/
inductive CacheOperation (ν : Type) where
  | get (key : PolicyCacheKey)
  | set (key : PolicyCacheKey) (entry : CachedPolicy ν) (ttlSeconds : Option ℚ)
  | invalidate (key : PolicyCacheKey)
  | invalidateResourceType (resourceType : String)
  | invalidateAll
  deriving DecidableEq

namespace InMemoryPolicyCache

variable {ν : Type}

/-- The cache after an operation at a given time. -/
def step (cache : InMemoryPolicyCache ν) : ℚ × CacheOperation ν → Option (InMemoryPolicyCache ν)
  | (now, .get key) => some (cache.get key now).2
  | (now, .set key entry ttlSeconds) => some (cache.set key entry ttlSeconds now)
  | (_, .invalidate key) => some (cache.invalidate key)
  | (_, .invalidateResourceType resourceType) => some (cache.invalidateResourceType resourceType)
  | (_, .invalidateAll) => some cache.invalidateAll

/-! ## The invariant -/

/-- The slot of a key, by the journal. -/
def slotOf (journal : CacheJournal ν) (key : PolicyCacheKey) : String :=
  generationText (generationsOf journal key) ++ "|" ++ key.resourceType ++ "|" ++ key.action

/-- The life of an entry, in milliseconds. -/
def lifetime (ttlSeconds : ℚ) : ℚ := ttlSeconds * 1000

/-- The maps are what the journal says. -/
structure Lawful (cache : InMemoryPolicyCache ν) : Prop where
  global : cache.globalGeneration = cache.journal.countP fun d => d.2.advancesAll
  resource : ∀ resourceType, cache.generationFor resourceType =
    cache.journal.countP fun d => d.2.advancesType resourceType
  grounded : Grounded slotOf cache.journal
  held : ∀ slot stored, cache.entries.get? slot = some stored →
    Held lifetime cache.journal slot ⟨stored.value, stored.policyVersion, stored.cachedAt⟩
      stored.expiresAt

theorem Lawful.entryKey_eq {cache : InMemoryPolicyCache ν} (h : cache.Lawful)
    (key : PolicyCacheKey) : cache.entryKey key = slotOf cache.journal key := by
  rw [entryKey, generationOf, h.global, h.resource, slotOf, generationsOf]

/-- An operation that looks and acts at once acts on the slot it has seen. -/
theorem begun_looked (i : ℕ) (journal : CacheJournal ν) (key : PolicyCacheKey) :
    Begun slotOf i (slotOf journal key) key ((i, .looked key) :: journal) :=
  ⟨[], journal, rfl, rfl, by simp⟩

theorem lawful_empty (defaultTtlSeconds : ℚ) :
    (empty defaultTtlSeconds : InMemoryPolicyCache ν).Lawful where
  global := rfl
  resource _ := rfl
  grounded := trivial
  held slot stored h := by simp [empty] at h

/-- Deeds that advance nothing, are grounded and touch no slot that is still used keep the
invariant. -/
theorem Lawful.note {cache : InMemoryPolicyCache ν} (h : cache.Lawful)
    {deeds : List (CacheDeed ν)} {entries : OrderedMap String (StoredEntry ν)}
    (hquiet : ∀ d ∈ deeds, d.advancesAll = false ∧ ∀ resourceType,
      d.advancesType resourceType = false)
    (hgrounded : Grounded slotOf (deeds.map (Prod.mk cache.journal.length) ++ cache.journal))
    (hheld : ∀ slot stored, entries.get? slot = some stored →
      Held lifetime (deeds.map (Prod.mk cache.journal.length) ++ cache.journal) slot
        ⟨stored.value, stored.policyVersion, stored.cachedAt⟩ stored.expiresAt) :
    ({ cache with entries := entries }.note deeds).Lawful where
  global := by
    have hnone : deeds.countP (fun d => d.advancesAll) = 0 :=
      List.countP_eq_zero.mpr fun d hd => by simp [(hquiet d hd).1]
    simp [InMemoryPolicyCache.note, List.countP_map, Function.comp_def, hnone, h.global]
  resource resourceType := by
    have hnone : deeds.countP (fun d => d.advancesType resourceType) = 0 :=
      List.countP_eq_zero.mpr fun d hd => by simp [(hquiet d hd).2 resourceType]
    have hresource := h.resource resourceType
    simp only [InMemoryPolicyCache.note, List.countP_append, List.countP_map, Function.comp_def,
      hnone, zero_add]
    exact hresource
  grounded := hgrounded
  held := hheld

/-- A read keeps the invariant; it may drop the entry of its slot. -/
theorem Lawful.get {cache : InMemoryPolicyCache ν} (h : cache.Lawful) (key : PolicyCacheKey)
    (now : ℚ) : (cache.get key now).2.Lawful := by
  have hnote : ∀ entries : OrderedMap String (StoredEntry ν),
      (∀ slot stored, entries.get? slot = some stored → cache.entries.get? slot = some stored) →
        ({ cache with entries := entries }.note [.answered key now]).Lawful := by
    intro entries hentries
    refine h.note (by simp [CacheDeed.advancesAll, CacheDeed.advancesType])
      ⟨trivial, h.grounded⟩ fun slot stored hget => ?_
    exact (h.held slot stored (hentries slot stored hget)).cons rfl
  unfold InMemoryPolicyCache.get
  split
  · exact hnote cache.entries fun _ _ => id
  · split
    · refine hnote _ fun slot stored hget => ?_
      rw [OrderedMap.get?_erase] at hget
      split at hget
      · cases hget
      · exact hget
    · exact hnote cache.entries fun _ _ => id

/-- So does a write. -/
theorem Lawful.set {cache : InMemoryPolicyCache ν} (h : cache.Lawful) (key : PolicyCacheKey)
    (entry : CachedPolicy ν) (ttlSeconds : Option ℚ) (now : ℚ) :
    (cache.set key entry ttlSeconds now).Lawful := by
  unfold InMemoryPolicyCache.set
  simp only
  split
  · exact h
  · rename_i hpositive
    refine h.note (by simp [CacheDeed.advancesAll, CacheDeed.advancesType])
      ⟨⟨not_le.mp hpositive, h.entryKey_eq key ▸ begun_looked _ _ key⟩, trivial, h.grounded⟩
      fun slot stored hget => ?_
    rw [OrderedMap.get?_set] at hget
    split at hget
    · rename_i hslot
      obtain rfl := Option.some.inj hget
      subst hslot
      exact held_of_wrote lifetime _ _ _ key entry _ now
    · rename_i hslot
      exact ((h.held slot stored hget).cons rfl).cons (by simp [CacheDeed.touches, hslot])

/-- So does a deletion. -/
theorem Lawful.invalidate {cache : InMemoryPolicyCache ν} (h : cache.Lawful)
    (key : PolicyCacheKey) : (cache.invalidate key).Lawful := by
  refine h.note (by simp [CacheDeed.advancesAll, CacheDeed.advancesType])
    ⟨h.entryKey_eq key ▸ begun_looked _ _ key, trivial, h.grounded⟩ fun slot stored hget => ?_
  rw [OrderedMap.get?_erase] at hget
  split at hget
  · cases hget
  · rename_i hslot
    exact ((h.held slot stored hget).cons rfl).cons (by simp [CacheDeed.touches, hslot])

/-- So does advancing a generation. -/
theorem Lawful.invalidateResourceType {cache : InMemoryPolicyCache ν} (h : cache.Lawful)
    (resourceType : String) : (cache.invalidateResourceType resourceType).Lawful where
  global := by
    simp [InMemoryPolicyCache.invalidateResourceType, InMemoryPolicyCache.note,
      CacheDeed.advancesAll, h.global]
  resource other := by
    have hother := h.resource other
    simp only [InMemoryPolicyCache.invalidateResourceType, InMemoryPolicyCache.note, List.map_cons,
      List.map_nil, List.cons_append, List.nil_append, List.countP_cons, CacheDeed.advancesType,
      generationFor, OrderedMap.get?_set, decide_eq_true_eq] at hother ⊢
    split
    · rename_i heq
      subst heq
      simp [hother]
    · simp [hother]
  grounded := ⟨trivial, h.grounded⟩
  held slot stored hget := (h.held slot stored hget).cons rfl

/-- And so does advancing the global one. -/
theorem Lawful.invalidateAll {cache : InMemoryPolicyCache ν} (h : cache.Lawful) :
    cache.invalidateAll.Lawful where
  global := by
    simp [InMemoryPolicyCache.invalidateAll, InMemoryPolicyCache.note, CacheDeed.advancesAll,
      h.global]
  resource other := by
    have hother := h.resource other
    simp only [InMemoryPolicyCache.invalidateAll, InMemoryPolicyCache.note, generationFor]
      at hother ⊢
    simp [CacheDeed.advancesType, hother]
  grounded := ⟨trivial, h.grounded⟩
  held slot stored hget := (h.held slot stored hget).cons rfl

/-- Every operation keeps the invariant. -/
theorem Lawful.step {cache cache' : InMemoryPolicyCache ν} (h : cache.Lawful)
    {event : ℚ × CacheOperation ν} (hstep : cache.step event = some cache') : cache'.Lawful := by
  obtain ⟨now, operation⟩ := event
  cases operation with
  | get key => exact Option.some.inj hstep ▸ h.get key now
  | set key entry ttlSeconds => exact Option.some.inj hstep ▸ h.set key entry ttlSeconds now
  | invalidate key => exact Option.some.inj hstep ▸ h.invalidate key
  | invalidateResourceType resourceType =>
    exact Option.some.inj hstep ▸ h.invalidateResourceType resourceType
  | invalidateAll => exact Option.some.inj hstep ▸ h.invalidateAll

/-- And so does every run. -/
theorem lawful_of_run {defaultTtlSeconds : ℚ} {cache : InMemoryPolicyCache ν}
    (hrun : Concurrency.Run step (empty defaultTtlSeconds) cache) : cache.Lawful :=
  hrun.invariant (lawful_empty defaultTtlSeconds) fun _ _ _ h _ hstep => h.step hstep

/-! ## Answers -/

/-- Two numerals between delimiters are read back, and so is what follows. -/
theorem generationText_append_inj {g g' : ℕ × ℕ} {s s' : String}
    (h : generationText g ++ "|" ++ s = generationText g' ++ "|" ++ s') : g = g' ∧ s = s' := by
  have hletters := congrArg String.toList h
  simp only [generationText, String.toList_append, List.append_assoc] at hletters
  obtain ⟨hfirst, hrest⟩ := selfDelimiting_repr (c := ':') (by decide)
    (show ((Nat.repr g.1).toList ++ [':']) ++ _ = ((Nat.repr g'.1).toList ++ [':']) ++ _ by
      simpa using hletters)
  obtain ⟨hsecond, htext⟩ := selfDelimiting_repr (c := '|') (by decide)
    (show ((Nat.repr g.2).toList ++ ['|']) ++ s.toList = ((Nat.repr g'.2).toList ++ ['|']) ++
      s'.toList by simpa using hrest)
  exact ⟨Prod.ext hfirst hsecond, String.toList_injective htext⟩

/-- A slot tells the generations of a key and the text its parts are joined to. -/
theorem slotOf_inj {journal journal' : CacheJournal ν} {key key' : PolicyCacheKey}
    (h : slotOf journal key = slotOf journal' key') :
    generationsOf journal key = generationsOf journal' key' ∧
      key.joined "|" = key'.joined "|" := by
  have hsplit : ∀ (journal : CacheJournal ν) key, slotOf journal key =
      generationText (generationsOf journal key) ++ "|" ++ key.joined "|" := fun journal key => by
    simp [slotOf, PolicyCacheKey.joined, String.append_assoc]
  rw [hsplit, hsplit] at h
  exact generationText_append_inj h

/-- A key that is alone with its text has slots of its own. -/
theorem separates_of_unambiguous {journal : CacheJournal ν} {key : PolicyCacheKey}
    (h : Unambiguous "|" journal key) : Separates slotOf journal key where
  same before key' _ hwritten hslot := by
    obtain ⟨hgenerations, hjoined⟩ := slotOf_inj hslot
    obtain rfl := h key' hwritten hjoined
    exact ⟨rfl, hgenerations⟩
  slot before _ hgenerations := by rw [slotOf, hgenerations, slotOf]

/-- In every state that is reached, an answer for a key that is alone with its text is current. -/
theorem answer_current {defaultTtlSeconds : ℚ} {cache : InMemoryPolicyCache ν}
    (hrun : Concurrency.Run step (empty defaultTtlSeconds) cache) {key : PolicyCacheKey}
    (hkey : Unambiguous "|" cache.journal key) {now : ℚ} {entry : CachedPolicy ν}
    (hget : (cache.get key now).1 = some entry) :
    Current lifetime cache.journal key entry now := by
  have hlawful := lawful_of_run hrun
  unfold InMemoryPolicyCache.get at hget
  split at hget
  · cases hget
  · rename_i stored hstored
    split at hget
    · cases hget
    · rename_i hlive
      obtain rfl := Option.some.inj hget
      exact current_of_held hlawful.grounded (hlawful.held _ _ hstored)
        (hlawful.entryKey_eq key) (separates_of_unambiguous hkey) (not_le.mp hlive)

/-- Invalidating a resource type leaves the answers for the others as they are. -/
theorem get_invalidateResourceType (cache : InMemoryPolicyCache ν) {resourceType : String}
    {key : PolicyCacheKey} (h : resourceType ≠ key.resourceType) (now : ℚ) :
    ((cache.invalidateResourceType resourceType).get key now).1 = (cache.get key now).1 := by
  have hkey : (cache.invalidateResourceType resourceType).entryKey key = cache.entryKey key := by
    simp [entryKey, generationOf, generationFor, InMemoryPolicyCache.invalidateResourceType,
      InMemoryPolicyCache.note, OrderedMap.get?_set_of_ne _ h]
  have hentries : (cache.invalidateResourceType resourceType).entries = cache.entries := rfl
  simp only [InMemoryPolicyCache.get, hkey, hentries]
  split
  · rfl
  · split <;> rfl

end InMemoryPolicyCache

end Verixa.Authorization
