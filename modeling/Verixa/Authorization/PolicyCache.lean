import Mathlib.Tactic

/-!
# Policy caches

What a policy cache is for, and why generations serve it.  A cache keeps entries under slots, which
are texts made of a key and of the generations of its resource type; invalidating a resource type,
or everything, advances a generation, so that the slots used before are not looked at any more.

A journal records what has been done with a cache, the latest first: when an operation on a key
began (it then learns the generations), and when it wrote or deleted a slot.  `Current` says, in
terms of the journal alone, that an entry may be answered for a key.  `current_of_held` is the
argument for caches with generations: if every write and every deletion uses the slot of the
generations known when its operation began, no invalidation having come between, and if slots tell
keys and generations apart, then the entry that stands in the slot of a key may be answered.
-/

namespace Verixa.Authorization

/-! ## Keys, entries and deeds -/

/-- What an entry is kept for. -/
structure PolicyCacheKey where
  resourceType : String
  action : String
  deriving DecidableEq

/-- A cached value and where it comes from. -/
structure CachedPolicy (ν : Type) where
  value : ν
  policyVersion : String
  cachedAt : String
  deriving DecidableEq

/-- What has been done with a cache. -/
inductive CacheDeed (ν : Type) where
  /-- An operation on a key began and learnt the generations. -/
  | looked (key : PolicyCacheKey)
  | wrote (slot : String) (key : PolicyCacheKey) (entry : CachedPolicy ν) (ttlSeconds now : ℚ)
  | deleted (slot : String) (key : PolicyCacheKey)
  | advancedType (resourceType : String)
  | advancedAll
  | answered (key : PolicyCacheKey) (now : ℚ)
  deriving DecidableEq

/-- What has been done, each deed with the number of the operation, the latest first. -/
abbrev CacheJournal (ν : Type) := List (ℕ × CacheDeed ν)

variable {ν : Type}

namespace CacheDeed

/-- The deed completes an invalidation that covers a key. -/
def covers (key : PolicyCacheKey) : CacheDeed ν → Bool
  | .deleted _ key' => decide (key' = key)
  | .advancedType resourceType => decide (resourceType = key.resourceType)
  | .advancedAll => true
  | _ => false

/-- The deed writes an entry under a key. -/
def writes (key : PolicyCacheKey) : CacheDeed ν → Bool
  | .wrote _ key' _ _ _ => decide (key' = key)
  | _ => false

/-- The deed writes or deletes a slot. -/
def touches (slot : String) : CacheDeed ν → Bool
  | .wrote slot' _ _ _ _ => decide (slot' = slot)
  | .deleted slot' _ => decide (slot' = slot)
  | _ => false

/-- The deed advances the generation of everything. -/
def advancesAll : CacheDeed ν → Bool
  | .advancedAll => true
  | _ => false

/-- The deed advances the generation of a resource type. -/
def advancesType (resourceType : String) : CacheDeed ν → Bool
  | .advancedType resourceType' => decide (resourceType' = resourceType)
  | _ => false

end CacheDeed

/-! ## What may be answered -/

/-- An entry may be answered for a key: it was written, with a positive lifetime, by the latest
write under exactly that key; the lifetime has not passed; and since that operation began, no
invalidation that covers the key was completed. -/
def Current (lifetime : ℚ → ℚ) (journal : CacheJournal ν) (key : PolicyCacheKey)
    (entry : CachedPolicy ν) (now : ℚ) : Prop :=
  ∃ i slot ttlSeconds writtenAt since between before,
    journal = since ++ (i, CacheDeed.wrote slot key entry ttlSeconds writtenAt) :: between ++
      (i, .looked key) :: before ∧
    0 < ttlSeconds ∧ now < writtenAt + lifetime ttlSeconds ∧
    (∀ d ∈ since, d.2.writes key = false) ∧ ∀ d ∈ since ++ between, d.2.covers key = false

/-! ## Generations -/

/-- The generations of a key: how often everything, and how often its resource type, was
invalidated. -/
def generationsOf (journal : CacheJournal ν) (key : PolicyCacheKey) : ℕ × ℕ :=
  (journal.countP fun d => d.2.advancesAll,
    journal.countP fun d => d.2.advancesType key.resourceType)

/-- While the generations stay, neither everything nor the resource type is invalidated. -/
theorem not_advances_of_generationsOf_eq {since before : CacheJournal ν} {key : PolicyCacheKey}
    (h : generationsOf (since ++ before) key = generationsOf before key) :
    ∀ d ∈ since, d.2.advancesAll = false ∧ d.2.advancesType key.resourceType = false := by
  rw [generationsOf, generationsOf, List.countP_append, List.countP_append, Prod.mk.injEq] at h
  have hall : since.countP (fun d => d.2.advancesAll) = 0 := by omega
  have htype : since.countP (fun d => d.2.advancesType key.resourceType) = 0 := by omega
  rw [List.countP_eq_zero] at hall htype
  exact fun d hd => ⟨by simpa using hall d hd, by simpa using htype d hd⟩

/-- While no invalidation covers the key, its generations stay. -/
theorem generationsOf_append {since before : CacheJournal ν} {key : PolicyCacheKey}
    (h : ∀ d ∈ since, d.2.covers key = false) :
    generationsOf (since ++ before) key = generationsOf before key := by
  have hall : since.countP (fun d => d.2.advancesAll) = 0 := by
    rw [List.countP_eq_zero]
    intro d hd hadvances
    have hcovers := h d hd
    cases hdeed : d.2 <;> simp_all [CacheDeed.advancesAll, CacheDeed.covers]
  have htype : since.countP (fun d => d.2.advancesType key.resourceType) = 0 := by
    rw [List.countP_eq_zero]
    intro d hd hadvances
    have hcovers := h d hd
    cases hdeed : d.2 <;> simp_all [CacheDeed.advancesType, CacheDeed.covers]
  rw [generationsOf, generationsOf, List.countP_append, List.countP_append, hall, htype, zero_add,
    zero_add]

/-- Generations that are the same at two moments are the same between them. -/
theorem generationsOf_between {since between before : CacheJournal ν} {key : PolicyCacheKey}
    (h : generationsOf (since ++ (between ++ before)) key = generationsOf before key) :
    generationsOf (between ++ before) key = generationsOf before key := by
  simp only [generationsOf, List.countP_append, Prod.mk.injEq] at h ⊢
  omega

/-! ## Slots -/

/-- An operation that now acts on a slot began when this was the slot of its key, and no
invalidation that covers the key was completed since. -/
def Begun (slotOf : CacheJournal ν → PolicyCacheKey → String) (i : ℕ) (slot : String)
    (key : PolicyCacheKey) (journal : CacheJournal ν) : Prop :=
  ∃ between before, journal = between ++ (i, .looked key) :: before ∧ slot = slotOf before key ∧
    ∀ d ∈ between, d.2.covers key = false

/-- What is asked of a deed, given the journal before it. -/
def GroundedDeed (slotOf : CacheJournal ν → PolicyCacheKey → String) (i : ℕ) (deed : CacheDeed ν)
    (journal : CacheJournal ν) : Prop :=
  match deed with
  | .wrote slot key _ ttlSeconds _ => 0 < ttlSeconds ∧ Begun slotOf i slot key journal
  | .deleted slot key => Begun slotOf i slot key journal
  | _ => True

/-- Every write and every deletion uses the slot known to its operation. -/
def Grounded (slotOf : CacheJournal ν → PolicyCacheKey → String) : CacheJournal ν → Prop
  | [] => True
  | (i, deed) :: journal => GroundedDeed slotOf i deed journal ∧ Grounded slotOf journal

theorem Grounded.of_append {slotOf : CacheJournal ν → PolicyCacheKey → String}
    {since before : CacheJournal ν} (h : Grounded slotOf (since ++ before)) :
    Grounded slotOf before := by
  induction since with
  | nil => exact h
  | cons d since ih => exact ih h.2

/-- A slot holds an entry until some time: it was last touched by the write of that entry. -/
def Held (lifetime : ℚ → ℚ) (journal : CacheJournal ν) (slot : String) (entry : CachedPolicy ν)
    (expiresAt : ℚ) : Prop :=
  ∃ since i key ttlSeconds writtenAt before,
    journal = since ++ (i, CacheDeed.wrote slot key entry ttlSeconds writtenAt) :: before ∧
    expiresAt = writtenAt + lifetime ttlSeconds ∧ ∀ d ∈ since, d.2.touches slot = false

/-- Another deed leaves a slot alone that it does not touch. -/
theorem Held.cons {lifetime : ℚ → ℚ} {journal : CacheJournal ν} {slot : String}
    {entry : CachedPolicy ν} {expiresAt : ℚ} (h : Held lifetime journal slot entry expiresAt)
    {d : ℕ × CacheDeed ν} (hd : d.2.touches slot = false) :
    Held lifetime (d :: journal) slot entry expiresAt := by
  obtain ⟨since, i, key, ttlSeconds, writtenAt, before, rfl, hexpires, hsince⟩ := h
  refine ⟨d :: since, i, key, ttlSeconds, writtenAt, before, rfl, hexpires, ?_⟩
  simpa [hd] using hsince

/-- What was just written is held. -/
theorem held_of_wrote (lifetime : ℚ → ℚ) (journal : CacheJournal ν) (i : ℕ) (slot : String)
    (key : PolicyCacheKey) (entry : CachedPolicy ν) (ttlSeconds writtenAt : ℚ) :
    Held lifetime ((i, .wrote slot key entry ttlSeconds writtenAt) :: journal) slot entry
      (writtenAt + lifetime ttlSeconds) :=
  ⟨[], i, key, ttlSeconds, writtenAt, journal, rfl, rfl, by simp⟩

/-- Slots tell keys and generations apart, as far as a key is concerned. -/
structure Separates (slotOf : CacheJournal ν → PolicyCacheKey → String)
    (journal : CacheJournal ν) (key : PolicyCacheKey) : Prop where
  /-- Only the key itself, under the same generations, has been written to its slot. -/
  same : ∀ before key', before <:+ journal → (∃ d ∈ journal, d.2.writes key' = true) →
    slotOf before key' = slotOf journal key →
      key' = key ∧ generationsOf before key = generationsOf journal key
  /-- The same generations give the same slot. -/
  slot : ∀ before, before <:+ journal → generationsOf before key = generationsOf journal key →
    slotOf before key = slotOf journal key

/-- The slot of an operation on a key is the one of now, if the generations have not changed since
the operation was completed. -/
theorem Begun.slot_eq {slotOf : CacheJournal ν → PolicyCacheKey → String}
    {journal since : CacheJournal ν} {key : PolicyCacheKey} {i : ℕ} {slot : String}
    {completed : CacheJournal ν} (h : Begun slotOf i slot key completed)
    (hjournal : journal = since ++ completed)
    (hsame : generationsOf completed key = generationsOf journal key)
    (hslot : Separates slotOf journal key) : slot = slotOf journal key := by
  obtain ⟨between, before, rfl, rfl, hbetween⟩ := h
  have hlooked : generationsOf ([(i, CacheDeed.looked key)] ++ before) key =
      generationsOf before key := generationsOf_append (by simp [CacheDeed.covers])
  have hbefore : generationsOf (between ++ (i, .looked key) :: before) key =
      generationsOf before key := (generationsOf_append hbetween).trans hlooked
  refine hslot.slot before ?_ (hbefore.symm.trans hsame)
  exact ⟨since ++ (between ++ [(i, CacheDeed.looked key)]), by simp [hjournal]⟩

/-- The entry that stands in the slot of a key may be answered for the key. -/
theorem current_of_held {slotOf : CacheJournal ν → PolicyCacheKey → String} {lifetime : ℚ → ℚ}
    {journal : CacheJournal ν} {key : PolicyCacheKey} {entry : CachedPolicy ν} {slot : String}
    {expiresAt now : ℚ} (hgrounded : Grounded slotOf journal)
    (hheld : Held lifetime journal slot entry expiresAt) (hkey : slot = slotOf journal key)
    (hslot : Separates slotOf journal key) (hnow : now < expiresAt) :
    Current lifetime journal key entry now := by
  obtain ⟨since, i, key', ttlSeconds, writtenAt, rest, hjournal, rfl, hsince⟩ := hheld
  have hwrite : Grounded slotOf ((i, .wrote slot key' entry ttlSeconds writtenAt) :: rest) :=
    Grounded.of_append (hjournal ▸ hgrounded)
  obtain ⟨⟨httl, hbegun⟩, -⟩ := hwrite
  obtain ⟨between, before, rfl, heq, hbetween⟩ := hbegun
  -- the slot was that of the same key under the same generations
  have hsuffix : before <:+ journal :=
    ⟨since ++ (i, .wrote slot key' entry ttlSeconds writtenAt) :: (between ++
      [(i, CacheDeed.looked key')]), by simp [hjournal]⟩
  obtain ⟨rfl, hgenerations⟩ := hslot.same before key' hsuffix
    ⟨(i, .wrote slot key' entry ttlSeconds writtenAt), by simp [hjournal],
      by simp [CacheDeed.writes]⟩ (heq.symm.trans hkey)
  -- so no generation has advanced since the operation began
  have hsplit : journal = (since ++ (i, .wrote slot key' entry ttlSeconds writtenAt) ::
      (between ++ [(i, .looked key')])) ++ before := by simp [hjournal]
  have hnone := not_advances_of_generationsOf_eq (hsplit ▸ hgenerations.symm)
  -- and whatever was done to the key since the write was done to this slot
  have htouched : ∀ j deed, (j, deed) ∈ since →
      (deed.writes key' = true ∨ ∃ slot', deed = .deleted slot' key') →
        deed.touches slot = true := by
    intro j deed hd hkind
    obtain ⟨later, earlier, rfl⟩ := List.append_of_mem hd
    generalize hcompleted : earlier ++ (i, .wrote slot key' entry ttlSeconds writtenAt) ::
      (between ++ (i, .looked key') :: before) = completed
    have hjournal' : journal = later ++ (j, deed) :: completed := by
      simp [hjournal, ← hcompleted]
    have hsame : generationsOf completed key' = generationsOf journal key' := by
      have hbetween' : completed = (earlier ++ (i, .wrote slot key' entry ttlSeconds writtenAt) ::
          (between ++ [(i, .looked key')])) ++ before := by simp [← hcompleted]
      have hwhole : journal = (later ++ [(j, deed)]) ++ ((earlier ++
          (i, .wrote slot key' entry ttlSeconds writtenAt) ::
            (between ++ [(i, .looked key')])) ++ before) := by simp [hjournal]
      rw [← hgenerations, hbetween']
      exact generationsOf_between (hwhole ▸ hgenerations.symm)
    have hrest : Grounded slotOf ((j, deed) :: completed) :=
      Grounded.of_append (hjournal' ▸ hgrounded)
    have hdeed : GroundedDeed slotOf j deed completed := hrest.1
    have hslot_eq : ∀ slot', Begun slotOf j slot' key' completed → slot' = slot := fun slot' h =>
      (h.slot_eq (hjournal'.trans (by simp : _ = (later ++ [(j, deed)]) ++ completed)) hsame
        hslot).trans hkey.symm
    rcases hkind with hwrites | ⟨slot', rfl⟩
    · cases deed <;> simp only [CacheDeed.writes, Bool.false_eq_true, decide_eq_true_eq] at hwrites
      subst hwrites
      simpa [CacheDeed.touches] using hslot_eq _ hdeed.2
    · simpa [CacheDeed.touches] using hslot_eq _ hdeed
  refine ⟨i, slot, ttlSeconds, writtenAt, since, between, before, by simp [hjournal], httl, hnow,
    fun d hd => ?_, fun d hd => ?_⟩
  · rw [Bool.eq_false_iff]
    intro hwrites
    exact absurd (htouched d.1 d.2 hd (Or.inl hwrites)) (by simp [hsince d hd])
  · rcases List.mem_append.mp hd with hd | hd
    · obtain ⟨hall, htype⟩ := hnone d (by simp [hd])
      rw [Bool.eq_false_iff]
      intro hcovers
      cases hdeed : d.2 with
      | deleted slot' key'' =>
        obtain rfl : key'' = key' := by simpa [hdeed, CacheDeed.covers] using hcovers
        exact absurd (htouched d.1 d.2 hd (Or.inr ⟨slot', hdeed⟩)) (by simp [hsince d hd])
      | advancedType resourceType =>
        rw [hdeed] at htype hcovers
        exact absurd (htype.symm.trans hcovers) (by simp)
      | advancedAll => simp [hdeed, CacheDeed.advancesAll] at hall
      | _ => simp [hdeed, CacheDeed.covers] at hcovers
    · exact hbetween d hd

end Verixa.Authorization
