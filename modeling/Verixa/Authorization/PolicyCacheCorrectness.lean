import Verixa.Authorization.RedisPolicyCache
import Verixa.Concurrency.Solo

/-!
# What the policy caches answer

The cache in Redis needs two round trips for every operation on a key, and other operations may be
completed between them.  In runs in which no invalidation that covers the key is (`Orderly`), and
in which no resource type is named by the empty text, an answer for a key that is alone with its
text is current (`RedisPolicyCache.answer_current`).
-/

namespace Verixa.Authorization

open Concurrency Encoding

namespace RedisPolicyCache

open InMemoryPolicyCache (generationText)

variable {ν : Type} (cache : RedisPolicyCache ν)

/-! ## Orderly calls -/

/-- Since the thread made its last call, no invalidation that covers the key was completed. -/
def undisturbed (i : ℕ) (about : PolicyCacheKey) (journal : CacheJournal ν) : Bool :=
  (journal.takeWhile fun d => d.1 ≠ i).all fun d => !d.2.covers about

/-- The slot is read or changed undisturbed, what is written survives as a text, and the generation
that is advanced is not that of the empty text. -/
def Orderly (i : ℕ) (s : RedisStore ν) : RedisRequest ν → ℚ → Prop
  | .mget _ _ _, _ => True
  | .get _ about, _ => undisturbed i about s.journal = true
  | .set _ _ _ about entry _, _ =>
    undisturbed i about s.journal = true ∧ cache.json.Serializable entry
  | .del _ about, _ => undisturbed i about s.journal = true
  | .incr _ resourceType, _ => resourceType ≠ some ""

instance [DecidableEq ν] (i : ℕ) (s : RedisStore ν) (q : RedisRequest ν) (now : ℚ) :
    Decidable (cache.Orderly i s q now) :=
  match q with
  | .mget _ _ _ => isTrue trivial
  | .get _ _ => inferInstanceAs (Decidable (_ = true))
  | .set _ _ _ _ entry _ => inferInstanceAs (Decidable (_ = true ∧
      cache.json.parse (cache.json.stringify entry) = some entry))
  | .del _ _ => inferInstanceAs (Decidable (_ = true))
  | .incr _ _ => inferInstanceAs (Decidable (_ ≠ _))

/-! ## Keys of the store -/

/-- The global counter is that of the empty text. -/
theorem globalGenerationKey_eq : cache.globalGenerationKey = cache.generationKey "" := by
  simp [globalGenerationKey, generationKey]

theorem generationKey_inj {resourceType resourceType' : String}
    (h : cache.generationKey resourceType = cache.generationKey resourceType') :
    resourceType = resourceType' := by
  have hletters := congrArg String.toList h
  simp only [generationKey, String.toList_append, List.append_assoc] at hletters
  exact String.toList_injective (List.append_cancel_left (List.append_cancel_left hletters))

/-- Counters and entries are told apart. -/
theorem entryKey_ne_generationKey (key : PolicyCacheKey) (generations resourceType : String) :
    cache.entryKey key generations ≠ cache.generationKey resourceType := by
  intro h
  have hletters := congrArg String.toList h
  simp only [entryKey, generationKey, String.toList_append, List.append_assoc] at hletters
  have hrest := List.append_cancel_left hletters
  cases hrest

/-- The slot of a key, by the journal; the empty text has the global generation. -/
def slotOf (journal : CacheJournal ν) (key : PolicyCacheKey) : String :=
  cache.entryKey key (generationText ((generationsOf journal key).1,
    if key.resourceType = "" then (generationsOf journal key).1 else (generationsOf journal key).2))

/-- A slot tells the generations of a key and the text its parts are joined to. -/
theorem entryKey_generationText_inj {g g' : ℕ × ℕ} {key key' : PolicyCacheKey}
    (h : cache.entryKey key (generationText g) = cache.entryKey key' (generationText g')) :
    g = g' ∧ key.joined ":" = key'.joined ":" := by
  have hletters := congrArg String.toList h
  simp only [entryKey, generationText, String.toList_append, List.append_assoc] at hletters
  have hrest := List.append_cancel_left (List.append_cancel_left hletters)
  obtain ⟨hfirst, hrest⟩ := selfDelimiting_repr (c := ':') (by decide)
    (show ((Nat.repr g.1).toList ++ [':']) ++ _ = ((Nat.repr g'.1).toList ++ [':']) ++ _ by
      simpa using hrest)
  obtain ⟨hsecond, hrest⟩ := selfDelimiting_repr (c := ':') (by decide)
    (show ((Nat.repr g.2).toList ++ [':']) ++ _ = ((Nat.repr g'.2).toList ++ [':']) ++ _ by
      simpa using hrest)
  refine ⟨Prod.ext hfirst hsecond, String.toList_injective ?_⟩
  simpa [PolicyCacheKey.joined] using hrest

/-! ## The law of generations -/

/-- The value of a counter that was advanced `n` times. -/
def counterValue : ℕ → Option RedisValue
  | 0 => none
  | n + 1 => some (.integer (n + 1))

/-- The life of an entry, in milliseconds: its seconds are rounded up. -/
def lifetime (ttlSeconds : ℚ) : ℚ := ⌈ttlSeconds⌉ * 1000

/-- The store is what the journal says. -/
structure Lawful (s : RedisStore ν) : Prop where
  global : s.values.get? cache.globalGenerationKey =
    counterValue (s.journal.countP fun d => d.2.advancesAll)
  resource : ∀ resourceType, resourceType ≠ "" →
    s.values.get? (cache.generationKey resourceType) =
      counterValue (s.journal.countP fun d => d.2.advancesType resourceType)
  named : ∀ d ∈ s.journal, d.2.advancesType "" = false
  grounded : Grounded cache.slotOf s.journal
  counters : ∀ slot n, s.values.get? slot = some (.integer n) →
    ∃ resourceType, slot = cache.generationKey resourceType
  held : ∀ slot text expiresAt, s.values.get? slot = some (.text text expiresAt) →
    ∃ entry, cache.json.Serializable entry ∧ text = cache.json.stringify entry ∧
      Held lifetime s.journal slot entry expiresAt

theorem lawful_empty : cache.Lawful RedisStore.empty where
  global := rfl
  resource _ _ := rfl
  named := by rintro _ ⟨⟩
  grounded := trivial
  counters slot n h := by simp [RedisStore.empty] at h
  held slot text expiresAt h := by simp [RedisStore.empty] at h

/-- The law of generations: the journal only grows. -/
def generationLaw : JournalLaw (RedisStore ν) (CacheDeed ν) where
  journal := RedisStore.journal
  inv := cache.Lawful
  order s t := s.journal <:+ t.journal
  order_refl _ := List.suffix_rfl
  order_trans _ _ _ := List.IsSuffix.trans

/-- The thread has looked at the generations when this was the slot, and done nothing since. -/
def Looked (i : ℕ) (slot : String) (about : PolicyCacheKey) (journal : CacheJournal ν) : Prop :=
  ∃ between before, journal = between ++ (i, .looked about) :: before ∧
    slot = cache.slotOf before about ∧ ∀ d ∈ between, d.1 ≠ i

/-- What an operation promises of a call. -/
def Justified (i : ℕ) (s : RedisStore ν) : RedisRequest ν → Prop
  | .mget _ _ _ => True
  | .get _ _ => True
  | .set slot text seconds about entry ttlSeconds => text = cache.json.stringify entry ∧
    seconds = ⌈ttlSeconds⌉ ∧ 0 < ttlSeconds ∧ cache.Looked i slot about s.journal
  | .del slot about => cache.Looked i slot about s.journal
  | .incr counter (some resourceType) => counter = cache.generationKey resourceType
  | .incr counter none => counter = cache.globalGenerationKey

variable {cache} {i : ℕ} {s t : RedisStore ν}

/-- An undisturbed thread acts on the slot it has seen. -/
theorem Looked.begun {slot : String} {about : PolicyCacheKey} {journal : CacheJournal ν}
    (h : cache.Looked i slot about journal) (hundisturbed : undisturbed i about journal = true) :
    Begun cache.slotOf i slot about journal := by
  obtain ⟨between, before, rfl, hslot, hothers⟩ := h
  have htake : (between ++ (i, .looked about) :: before).takeWhile (fun d => decide (d.1 ≠ i)) =
      between := by
    rw [List.takeWhile_append_of_pos (by simpa using hothers), List.takeWhile_cons_of_neg (by simp),
      List.append_nil]
  rw [undisturbed, htake, List.all_eq_true] at hundisturbed
  exact ⟨between, before, rfl, hslot, fun d hd => by simpa using hundisturbed d hd⟩

/-- The generations of a key do not change for an undisturbed thread. -/
theorem slotOf_of_begun {slot : String} {about : PolicyCacheKey} {journal : CacheJournal ν}
    (h : Begun cache.slotOf i slot about journal) : slot = cache.slotOf journal about := by
  obtain ⟨between, before, rfl, rfl, hbetween⟩ := h
  have hlooked : generationsOf ((i, CacheDeed.looked about) :: before) about =
      generationsOf before about :=
    @generationsOf_append _ [(i, CacheDeed.looked about)] _ _ (by simp [CacheDeed.covers])
  have hsame : generationsOf (between ++ (i, .looked about) :: before) about =
      generationsOf before about := (generationsOf_append hbetween).trans hlooked
  rw [slotOf, slotOf, hsame]

/-! ## Every call keeps the law -/

/-- Deeds that advance nothing, are grounded and leave the counters alone keep the law, if what the
slots hold is still accounted for. -/
theorem Lawful.note (h : cache.Lawful s) {deed : CacheDeed ν}
    {values : OrderedMap String RedisValue}
    (hquiet : deed.advancesAll = false ∧ ∀ resourceType, deed.advancesType resourceType = false)
    (hgrounded : GroundedDeed cache.slotOf i deed s.journal)
    (hcounters : ∀ resourceType, values.get? (cache.generationKey resourceType) =
      s.values.get? (cache.generationKey resourceType))
    (hkeys : ∀ slot n, values.get? slot = some (.integer n) →
      s.values.get? slot = some (.integer n))
    (hheld : ∀ slot text expiresAt, values.get? slot = some (.text text expiresAt) →
      ∃ entry, cache.json.Serializable entry ∧ text = cache.json.stringify entry ∧
        Held lifetime ((i, deed) :: s.journal) slot entry expiresAt) :
    cache.Lawful ({ s with values := values }.note i deed) where
  global := by
    have hglobal := h.global
    rw [globalGenerationKey_eq] at hglobal ⊢
    simpa [RedisStore.note, hquiet.1, hcounters] using hglobal
  resource resourceType hname := by
    simpa [RedisStore.note, hquiet.2, hcounters] using h.resource resourceType hname
  named d hd := by
    rcases List.mem_cons.mp hd with rfl | hd
    · exact hquiet.2 ""
    · exact h.named d hd
  grounded := ⟨hgrounded, h.grounded⟩
  counters slot n hget := h.counters slot n (hkeys slot n hget)
  held := hheld

/-- Looking and answering change nothing in the store. -/
theorem Lawful.look (h : cache.Lawful s) {deed : CacheDeed ν}
    (hdeed : (∃ key, deed = .looked key) ∨ ∃ key now, deed = .answered key now) :
    cache.Lawful (s.note i deed) := by
  refine h.note ?_ ?_ (fun _ => rfl) (fun _ _ => id)
    fun slot text expiresAt hget => ?_
  · rcases hdeed with ⟨key, rfl⟩ | ⟨key, now, rfl⟩ <;> exact ⟨rfl, fun _ => rfl⟩
  · rcases hdeed with ⟨key, rfl⟩ | ⟨key, now, rfl⟩ <;> trivial
  · obtain ⟨entry, hserializable, htext, hheld⟩ := h.held slot text expiresAt hget
    refine ⟨entry, hserializable, htext, hheld.cons ?_⟩
    rcases hdeed with ⟨key, rfl⟩ | ⟨key, now, rfl⟩ <;> rfl

/-- Writing an entry. -/
theorem Lawful.set (h : cache.Lawful s) {slot text : String} {seconds : ℤ}
    {about : PolicyCacheKey} {entry : CachedPolicy ν} {ttlSeconds now : ℚ}
    (hjust : cache.Justified i s (.set slot text seconds about entry ttlSeconds))
    (horderly : cache.Orderly i s (.set slot text seconds about entry ttlSeconds) now) :
    cache.Lawful ({ s with values := s.values.set slot (.text text (now + seconds * 1000)) }.note i
      (.wrote slot about entry ttlSeconds now)) := by
  obtain ⟨rfl, rfl, hpositive, hlooked⟩ := hjust
  have hbegun := hlooked.begun horderly.1
  have hslot : ∀ resourceType, slot ≠ cache.generationKey resourceType := fun resourceType => by
    rw [slotOf_of_begun hbegun]
    exact cache.entryKey_ne_generationKey _ _ resourceType
  refine h.note ⟨rfl, fun _ => rfl⟩ ⟨hpositive, hbegun⟩
    (fun resourceType => OrderedMap.get?_set_of_ne _ (hslot resourceType) _)
    (fun slot' n hget => ?_) fun slot' text expiresAt hget => ?_
  · rw [OrderedMap.get?_set] at hget
    split at hget
    · cases hget
    · exact hget
  · rw [OrderedMap.get?_set] at hget
    split at hget
    · rename_i heq
      cases hget
      subst heq
      exact ⟨entry, horderly.2, rfl, held_of_wrote lifetime _ _ _ about entry ttlSeconds now⟩
    · rename_i hne
      obtain ⟨entry', hserializable, htext, hheld⟩ := h.held slot' text expiresAt hget
      exact ⟨entry', hserializable, htext, hheld.cons (by simp [CacheDeed.touches, hne])⟩

/-- Deleting an entry. -/
theorem Lawful.del (h : cache.Lawful s) {slot : String} {about : PolicyCacheKey}
    (hbegun : Begun cache.slotOf i slot about s.journal) :
    cache.Lawful ({ s with values := s.values.erase slot }.note i (.deleted slot about)) := by
  have hslot : ∀ resourceType, cache.generationKey resourceType ≠ slot := fun resourceType => by
    rw [slotOf_of_begun hbegun]
    exact (cache.entryKey_ne_generationKey _ _ resourceType).symm
  refine h.note ⟨rfl, fun _ => rfl⟩ hbegun (fun resourceType => ?_) (fun slot' n hget => ?_)
    fun slot' text expiresAt hget => ?_
  · rw [OrderedMap.get?_erase, if_neg (Ne.symm (hslot resourceType))]
  · rw [OrderedMap.get?_erase] at hget
    split at hget
    · cases hget
    · exact hget
  · rw [OrderedMap.get?_erase] at hget
    split at hget
    · cases hget
    · rename_i hne
      obtain ⟨entry, hserializable, htext, hheld⟩ := h.held slot' text expiresAt hget
      exact ⟨entry, hserializable, htext, hheld.cons (by simp [CacheDeed.touches, hne])⟩

/-- What `INCR` makes of a counter. -/
theorem counterAt_of_counterValue {values : OrderedMap String RedisValue} {key : String} {n : ℕ}
    (h : values.get? key = counterValue n) (now : ℚ) :
    RedisStore.counterAt values key now = some n := by
  cases n <;> simp [RedisStore.counterAt, h, counterValue]

/-- Advancing the generation of a resource type. -/
theorem Lawful.incr (h : cache.Lawful s) {resourceType : String} (hname : resourceType ≠ "")
    {values : OrderedMap String RedisValue}
    (hvalues : values = s.values.set (cache.generationKey resourceType)
      (.integer ((s.journal.countP fun d => d.2.advancesType resourceType) + 1))) :
    cache.Lawful ({ s with values := values }.note i (.advancedType resourceType)) where
  global := by
    have hne : cache.generationKey resourceType ≠ cache.globalGenerationKey := fun heq =>
      hname (cache.generationKey_inj (heq.trans cache.globalGenerationKey_eq))
    simpa [RedisStore.note, hvalues, CacheDeed.advancesAll, OrderedMap.get?_set_of_ne _ hne] using
      h.global
  resource other hother := by
    have hcounter := h.resource other hother
    change values.get? _ = counterValue (((i, _) :: s.journal).countP _)
    rw [hvalues, OrderedMap.get?_set]
    by_cases heq : resourceType = other
    · subst heq
      rw [if_pos rfl, List.countP_cons_of_pos (by simp [CacheDeed.advancesType])]
      rfl
    · rw [if_neg fun h => heq (cache.generationKey_inj h),
        List.countP_cons_of_neg (by simp [CacheDeed.advancesType, heq])]
      exact hcounter
  named d hd := by
    rcases List.mem_cons.mp hd with rfl | hd
    · simpa [CacheDeed.advancesType] using hname
    · exact h.named d hd
  grounded := ⟨trivial, h.grounded⟩
  counters slot n hget := by
    change values.get? slot = _ at hget
    rw [hvalues, OrderedMap.get?_set] at hget
    split at hget
    · rename_i heq
      exact ⟨resourceType, heq.symm⟩
    · exact h.counters slot n hget
  held slot text expiresAt hget := by
    change values.get? slot = _ at hget
    rw [hvalues, OrderedMap.get?_set] at hget
    split at hget
    · cases hget
    · obtain ⟨entry, hserializable, htext, hheld⟩ := h.held slot text expiresAt hget
      exact ⟨entry, hserializable, htext, hheld.cons rfl⟩

/-- Advancing the global generation. -/
theorem Lawful.incrAll (h : cache.Lawful s) {values : OrderedMap String RedisValue}
    (hvalues : values = s.values.set cache.globalGenerationKey
      (.integer ((s.journal.countP fun d => d.2.advancesAll) + 1))) :
    cache.Lawful ({ s with values := values }.note i .advancedAll) where
  global := by
    simp [RedisStore.note, hvalues, CacheDeed.advancesAll, counterValue]
  resource other hother := by
    have hne : cache.globalGenerationKey ≠ cache.generationKey other := fun heq =>
      hother (cache.generationKey_inj (cache.globalGenerationKey_eq.symm.trans heq)).symm
    simpa [RedisStore.note, hvalues, CacheDeed.advancesType, OrderedMap.get?_set_of_ne _ hne] using
      h.resource other hother
  named d hd := by
    rcases List.mem_cons.mp hd with rfl | hd
    · rfl
    · exact h.named d hd
  grounded := ⟨trivial, h.grounded⟩
  counters slot n hget := by
    change values.get? slot = _ at hget
    rw [hvalues, OrderedMap.get?_set] at hget
    split at hget
    · rename_i heq
      exact ⟨"", heq.symm.trans cache.globalGenerationKey_eq⟩
    · exact h.counters slot n hget
  held slot text expiresAt hget := by
    change values.get? slot = _ at hget
    rw [hvalues, OrderedMap.get?_set] at hget
    split at hget
    · cases hget
    · obtain ⟨entry, hserializable, htext, hheld⟩ := h.held slot text expiresAt hget
      exact ⟨entry, hserializable, htext, hheld.cons rfl⟩

variable (cache) in
theorem isJournal_serve : cache.generationLaw.IsJournal RedisStore.serve := by
  intro i s q ω r t hserve
  cases q with
  | incr counter resourceType =>
    simp only [RedisStore.serve] at hserve
    split at hserve <;> cases hserve
    · exact ⟨[], rfl⟩
    · exact ⟨[_], rfl⟩
  | _ =>
    cases hserve
    exact ⟨[_], rfl⟩

variable (cache) in
/-- Justified calls that are orderly keep the law. -/
theorem keptBy_generationLaw :
    cache.generationLaw.KeptBy RedisStore.serve cache.Orderly cache.Justified := by
  intro i s q now r t hinv hjust horderly hserve
  obtain ⟨added, hadded⟩ := cache.isJournal_serve i s q now r t hserve
  refine ⟨?_, _, hadded.symm⟩
  have hlawful : cache.Lawful s := hinv
  cases q with
  | mget global resource about =>
    cases hserve
    exact hlawful.look (.inl ⟨about, rfl⟩)
  | get slot about =>
    cases hserve
    exact hlawful.look (.inr ⟨about, now, rfl⟩)
  | set slot text seconds about entry ttlSeconds =>
    cases hserve
    exact hlawful.set hjust horderly
  | del slot about =>
    cases hserve
    exact hlawful.del (hjust.begun horderly)
  | incr counter resourceType =>
    cases resourceType with
    | none =>
      obtain rfl : counter = cache.globalGenerationKey := hjust
      rw [RedisStore.serve, counterAt_of_counterValue hlawful.global] at hserve
      cases hserve
      exact hlawful.incrAll rfl
    | some resourceType =>
      obtain rfl : counter = cache.generationKey resourceType := hjust
      have hname : resourceType ≠ "" := fun heq => horderly (congrArg some heq)
      rw [RedisStore.serve, counterAt_of_counterValue (hlawful.resource _ hname)] at hserve
      cases hserve
      exact hlawful.incr hname rfl

/-! ## The walk through the operations -/

/-- The text of a counter that was advanced `n` times; one without value is taken for zero. -/
theorem textAt_of_counterValue {values : OrderedMap String RedisValue} {key : String} {n : ℕ}
    (h : values.get? key = counterValue n) (now : ℚ) :
    (textAt values key now).getD "0" = Nat.repr n := by
  cases n <;> simp [textAt, h, counterValue]
  rfl

/-- The generations read in one round trip are those of the journal. -/
theorem Lawful.entryKey_eq (h : cache.Lawful s) (key : PolicyCacheKey) (now : ℚ) :
    cache.entryKey key ((textAt s.values cache.globalGenerationKey now).getD "0" ++ ":" ++
      (textAt s.values (cache.generationKey key.resourceType) now).getD "0") =
        cache.slotOf s.journal key := by
  rw [textAt_of_counterValue h.global, slotOf, generationText]
  split
  · rename_i hname
    rw [hname, ← cache.globalGenerationKey_eq, textAt_of_counterValue h.global]
    rfl
  · rename_i hname
    rw [textAt_of_counterValue (h.resource _ hname)]
    rfl

/-- A text that is read from a slot is that of an entry the slot holds. -/
theorem Lawful.held_of_textAt (h : cache.Lawful s) {key : PolicyCacheKey}
    {journal : CacheJournal ν} {text : String} {now : ℚ}
    (hread : textAt s.values (cache.slotOf journal key) now = some text) :
    ∃ entry expiresAt, cache.json.parse text = some entry ∧ now < expiresAt ∧
      Held lifetime s.journal (cache.slotOf journal key) entry expiresAt := by
  unfold textAt at hread
  split at hread
  · cases hread
  · rename_i n hinteger
    obtain ⟨resourceType, heq⟩ := h.counters _ n hinteger
    exact absurd heq (cache.entryKey_ne_generationKey _ _ resourceType)
  · rename_i value expiresAt htext
    split at hread
    · rename_i hlive
      obtain ⟨entry, hserializable, rfl, hheld⟩ := h.held _ _ _ htext
      cases hread
      exact ⟨entry, expiresAt, hserializable, hlive, hheld⟩
    · cases hread

/-- A key that is alone with its text has slots of its own. -/
theorem separates_of_unambiguous (h : cache.Lawful s) {key : PolicyCacheKey}
    (hkey : Unambiguous ":" s.journal key) : Separates cache.slotOf s.journal key where
  same before key' hbefore hwritten hslot := by
    obtain ⟨hgenerations, hjoined⟩ := cache.entryKey_generationText_inj hslot
    obtain rfl := hkey key' hwritten hjoined
    obtain ⟨hglobal, hresource⟩ := Prod.ext_iff.mp hgenerations
    refine ⟨rfl, Prod.ext hglobal ?_⟩
    by_cases hname : key'.resourceType = ""
    · -- the generation of the empty text is never advanced
      have hnone : ∀ journal : CacheJournal ν, journal <:+ s.journal →
          (generationsOf journal key').2 = 0 := fun journal hjournal =>
        List.countP_eq_zero.mpr fun d hd => by
          rw [hname, h.named d (hjournal.subset hd)]
          simp
      rw [hnone before hbefore, hnone s.journal List.suffix_rfl]
    · simpa [hname] using hresource
  slot before _ hgenerations := by rw [slotOf, slotOf, hgenerations]

/-- An answer was current when it was given, if the key was alone with its text. -/
def AnswersCurrent (i : ℕ) (operation : CacheOperation ν) (_ t : RedisStore ν)
    (answer : CacheAnswer ν) : Prop :=
  ∀ key entry, operation = .get key → answer = .ok (some entry) →
    ∃ before now, (i, .answered key now) :: before <:+ t.journal ∧
      (Unambiguous ":" before key → Current lifetime before key entry now)

section Rules

variable {γ : Type} {post : RedisStore ν → γ → Prop} {deeds : List (CacheDeed ν)}

/-- Reading the generations. -/
theorem safe_currentGenerations {key : PolicyCacheKey} {f : String → RedisProgram ν γ}
    (hknows : cache.generationLaw.deedsOf i s = deeds)
    (h : ∀ t text, cache.generationLaw.deedsOf i t = .looked key :: deeds →
      (∀ u : RedisStore ν, t.journal <:+ u.journal →
        cache.generationLaw.deedsOf i u = .looked key :: deeds →
          cache.Looked i (cache.entryKey key text) key u.journal) →
      Safe cache.generationLaw.contract RedisStore.serve cache.Orderly i post (f text) t) :
    Safe cache.generationLaw.contract RedisStore.serve cache.Orderly i post
      (cache.currentGenerations key >>= f) s := by
  refine cache.generationLaw.safe_call
    (q := .mget cache.globalGenerationKey (cache.generationKey key.resourceType) key)
    cache.isJournal_serve cache.keptBy_generationLaw hknows (fun _ _ _ _ => trivial) ?_
  intro t now r u _ hinv hknows_t _ hserve _ _
  cases hserve
  have hknows_u : cache.generationLaw.deedsOf i (t.note i (.looked key)) = .looked key :: deeds :=
    JournalLaw.deedsOf_of_deed rfl hknows_t
  refine h _ _ hknows_u fun v hv hknows_v => ?_
  obtain ⟨since, hsince⟩ := hv
  refine ⟨since, t.journal, hsince.symm, Lawful.entryKey_eq hinv key now, ?_⟩
  exact cache.generationLaw.ne_of_deedsOf_eq (s := t.note i (.looked key)) hsince.symm
    (hknows_v.trans hknows_u.symm)

/-- A call that ends an operation which has nothing to say. -/
theorem safe_last (operation : CacheOperation ν) (q : RedisRequest ν)
    {f : q.Answer → CacheAnswer ν} (hoperation : ∀ key, operation ≠ .get key)
    (hknows : cache.generationLaw.deedsOf i s = deeds)
    (hjust : ∀ t, s.journal <:+ t.journal → cache.generationLaw.deedsOf i t = deeds →
      cache.Justified i t q) {begun : RedisStore ν} :
    Safe cache.generationLaw.contract RedisStore.serve cache.Orderly i
      (AnswersCurrent i operation begun) (.call q fun r => .ret (f r)) s := by
  refine cache.generationLaw.safe_call cache.isJournal_serve cache.keptBy_generationLaw hknows
    (fun t horder _ hknows_t => hjust t horder hknows_t) ?_
  intro t now r u _ _ _ _ _ _ _
  exact cache.generationLaw.safe_ret rfl fun _ _ _ _ key _ hget => absurd hget (hoperation key)

end Rules

variable (cache) in
/-- What a read does with the text that it has found in a slot. -/
def answerFor (key : PolicyCacheKey) (slot text : String) : RedisProgram ν (CacheAnswer ν) :=
  match cache.json.parse text with
  | some entry => return .ok (some entry)
  | none => do
    del slot key
    return .ok none

/-- A read keeps the law, and answers for what it returns. -/
theorem safe_get {key : PolicyCacheKey} (hidle : cache.generationLaw.deedsOf i s = []) :
    Safe cache.generationLaw.contract RedisStore.serve cache.Orderly i
      (AnswersCurrent i (.get key) s) (cache.get key) s := by
  refine safe_currentGenerations hidle fun t generations hknows hlooked => ?_
  refine cache.generationLaw.safe_call (q := .get (cache.entryKey key generations) key)
    cache.isJournal_serve cache.keptBy_generationLaw hknows (fun _ _ _ _ => trivial) ?_
  intro u now r v horder hinv hknows_u horderly hserve _ _
  have hlawful : cache.Lawful u := hinv
  have hslot := slotOf_of_begun ((hlooked u horder hknows_u).begun horderly)
  cases hserve
  cases hread : textAt u.values (cache.entryKey key generations) now with
  | none => exact cache.generationLaw.safe_ret rfl (by rintro _ _ _ _ _ _ _ ⟨⟩)
  | some text =>
    rw [hslot] at hread
    obtain ⟨entry, expiresAt, hparse, hlive, hheld⟩ := hlawful.held_of_textAt hread
    change Safe _ _ _ i _ (cache.answerFor key _ text) _
    rw [answerFor, hparse]
    refine cache.generationLaw.safe_ret rfl fun w hw _ _ key' entry' hget hanswer => ?_
    cases hget
    cases hanswer
    refine ⟨u.journal, now, hw, fun hkey => ?_⟩
    exact current_of_held hlawful.grounded hheld rfl (separates_of_unambiguous hlawful hkey) hlive

/-- Every operation keeps the law, and answers for what it returns. -/
theorem safe_perform (operation : CacheOperation ν)
    (hidle : cache.generationLaw.deedsOf i s = []) :
    Safe cache.generationLaw.contract RedisStore.serve cache.Orderly i
      (AnswersCurrent i operation s) (cache.perform operation) s := by
  cases operation with
  | get key => exact safe_get hidle
  | set key entry ttlSeconds =>
    change Safe _ _ _ i _ (if ttlSeconds.getD cache.defaultTtlSeconds ≤ 0 then _ else _) s
    split
    · exact cache.generationLaw.safe_ret hidle (by rintro _ _ _ _ _ _ ⟨⟩)
    · rename_i hpositive
      refine safe_currentGenerations hidle fun t generations hknows hlooked => ?_
      exact safe_last (.set key entry ttlSeconds) (.set _ _ _ key entry _) (by rintro _ ⟨⟩)
        hknows fun u horder hknows_u => ⟨rfl, rfl, not_le.mp hpositive, hlooked u horder hknows_u⟩
  | invalidate key =>
    refine safe_currentGenerations hidle fun t generations hknows hlooked => ?_
    exact safe_last (.invalidate key) (.del _ key) (by rintro _ ⟨⟩) hknows hlooked
  | invalidateResourceType resourceType =>
    exact safe_last (.invalidateResourceType resourceType) (.incr _ (some resourceType))
      (by rintro _ ⟨⟩) hidle fun _ _ _ => rfl
  | invalidateAll =>
    exact safe_last .invalidateAll (.incr _ none) (by rintro _ ⟨⟩) hidle fun _ _ _ => rfl

/-! ## Undisturbed reads -/

variable (cache) in
/-- What a read answers whose two round trips come at the same moment. -/
def answerAt (values : OrderedMap String RedisValue) (key : PolicyCacheKey) (now : ℚ) :
    Option (CachedPolicy ν) :=
  (textAt values (cache.entryKey key ((textAt values cache.globalGenerationKey now).getD "0" ++
    ":" ++ (textAt values (cache.generationKey key.resourceType) now).getD "0")) now).bind
      cache.json.parse

/-- A call is served at a given moment. -/
def At (now : ℚ) (_ : ℕ) (_ : RedisStore ν) (_ : RedisRequest ν) (ω : ℚ) : Prop := ω = now

theorem answer_of_runs {key : PolicyCacheKey} {now : ℚ} {answer : CacheAnswer ν}
    (h : Runs RedisStore.serve (At now) i (cache.get key) s answer t) :
    answer = .ok (cache.answerAt s.values key now) := by
  obtain ⟨r, u, ⟨ω, rfl, hmget⟩, hrest⟩ := runs_call.mp h
  cases hmget
  obtain ⟨r, v, ⟨ω', rfl, hget⟩, hrest⟩ := runs_call.mp hrest
  cases hget
  unfold answerAt
  cases hread : textAt s.values (cache.entryKey key
    ((textAt s.values cache.globalGenerationKey ω').getD "0" ++ ":" ++
      (textAt s.values (cache.generationKey key.resourceType) ω').getD "0")) ω' with
  | none =>
    rw [show textAt (s.note i _).values _ _ = none from hread] at hrest
    exact (runs_ret.mp hrest).1
  | some text =>
    rw [show textAt (s.note i _).values _ _ = some text from hread] at hrest
    change Runs _ _ _ (cache.answerFor key _ text) _ _ _ at hrest
    rw [answerFor] at hrest
    rw [Option.bind_some]
    cases hparse : cache.json.parse text with
    | some entry =>
      rw [hparse] at hrest
      exact (runs_ret.mp hrest).1
    | none =>
      rw [hparse] at hrest
      obtain ⟨r, w, -, hrest⟩ := runs_call.mp hrest
      exact (runs_ret.mp hrest).1

/-- Reads look at no counter but two. -/
theorem answerAt_set_generation {values : OrderedMap String RedisValue} {resourceType : String}
    {key : PolicyCacheKey} (hname : resourceType ≠ "") (hkey : resourceType ≠ key.resourceType)
    (value : RedisValue) (now : ℚ) :
    cache.answerAt (values.set (cache.generationKey resourceType) value) key now =
      cache.answerAt values key now := by
  have hother : ∀ slot, cache.generationKey resourceType ≠ slot →
      textAt (values.set (cache.generationKey resourceType) value) slot now =
        textAt values slot now := fun slot h => by
    rw [textAt, OrderedMap.get?_set_of_ne _ h, textAt]
  have hglobal : cache.generationKey resourceType ≠ cache.globalGenerationKey := fun h =>
    hname (cache.generationKey_inj (h.trans cache.globalGenerationKey_eq))
  rw [answerAt, hother _ hglobal, hother _ fun h => hkey (cache.generationKey_inj h),
    hother _ (cache.entryKey_ne_generationKey _ _ _).symm, answerAt]

/-- Invalidating a resource type leaves the answers for the others as they are. -/
theorem answerAt_invalidateResourceType {allowed : ℕ → RedisStore ν → RedisRequest ν → ℚ → Prop}
    {resourceType : String} {key : PolicyCacheKey} (hname : resourceType ≠ "")
    (hkey : resourceType ≠ key.resourceType) {answer : CacheAnswer ν}
    (h : Runs RedisStore.serve allowed i (cache.invalidateResourceType resourceType) s answer t)
    (now : ℚ) : cache.answerAt t.values key now = cache.answerAt s.values key now := by
  obtain ⟨r, u, ⟨ω, -, hincr⟩, hrest⟩ := runs_call.mp h
  obtain ⟨-, rfl⟩ := runs_ret.mp hrest
  simp only [RedisStore.serve] at hincr
  split at hincr <;> cases hincr
  · rfl
  · exact answerAt_set_generation hname hkey _ now

end RedisPolicyCache

/-! ## Runs of both caches -/

section Correct

variable {ν : Type}

/-- For a key that is alone with its text, what is answered is current; and invalidating a resource
type changes nothing for the others. -/
structure InMemoryPolicyCache.Correct (cache : InMemoryPolicyCache ν) : Prop where
  current : ∀ key now entry, Unambiguous "|" cache.journal key →
    (cache.get key now).1 = some entry →
      Current InMemoryPolicyCache.lifetime cache.journal key entry now
  apart : ∀ resourceType key now, resourceType ≠ key.resourceType →
    ((cache.invalidateResourceType resourceType).get key now).1 = (cache.get key now).1

/-- For a key that was alone with its text, what was answered was current at that moment; and
invalidating a named resource type changes nothing for undisturbed reads of the others. -/
structure RedisPolicyCache.Correct (cache : RedisPolicyCache ν) (P : RedisPool ν) : Prop where
  current : ∀ i key entry, P.returned i = some ⟨.get key, .ok (some entry)⟩ →
    ∃ before now, (i, .answered key now) :: before <:+ P.store.journal ∧
      (Unambiguous ":" before key → Current RedisPolicyCache.lifetime before key entry now)
  apart : ∀ resourceType key i j now later answer answer' answer'' s t t', resourceType ≠ "" →
    resourceType ≠ key.resourceType →
    Runs RedisStore.serve (RedisPolicyCache.At now) i (cache.get key) P.store answer s →
    Runs RedisStore.serve (RedisPolicyCache.At later) j (cache.invalidateResourceType resourceType)
      P.store answer'' t →
    Runs RedisStore.serve (RedisPolicyCache.At now) i (cache.get key) t answer' t' →
    answer' = answer

end Correct

/-! ## Samples -/

/-- A key of documents. -/
def sampleKey : PolicyCacheKey := ⟨"document", "read"⟩

/-- A cached decision. -/
def sampleEntry : CachedPolicy String := ⟨"allow", "v1", "2026-01-01T00:00:00.000Z"⟩

/-- What JSON makes of the sample decision. -/
def sampleJson : PolicyJson String where
  stringify entry := "\x7b\"value\":\"" ++ entry.value ++ "\",\"policyVersion\":\"" ++
    entry.policyVersion ++ "\",\"cachedAt\":\"" ++ entry.cachedAt ++ "\"\x7d"
  parse text :=
    if text = "\x7b\"value\":\"allow\",\"policyVersion\":\"v1\"," ++
        "\"cachedAt\":\"2026-01-01T00:00:00.000Z\"\x7d"
    then some sampleEntry else none

/-- A cache in Redis with the usual options. -/
def sampleRedisCache : RedisPolicyCache String := { json := sampleJson }

/-- The sample decision is cached and read. -/
def sampleReading : List (PoolEvent (CacheOperation String) ℚ) :=
  [.start 0 (.set sampleKey sampleEntry none), .answer 0 0, .answer 0 1,
    .start 1 (.get sampleKey), .answer 1 5, .answer 1 6]

/-- The sample decision is cached while its key is invalidated, and read. -/
def sampleRace : List (PoolEvent (CacheOperation String) ℚ) :=
  [.start 0 (.set sampleKey sampleEntry none), .answer 0 0,
    .start 1 (.invalidate sampleKey), .answer 1 1, .answer 1 2,
    .answer 0 3, .start 2 (.get sampleKey), .answer 2 5, .answer 2 6]

/-- The pool after the race. -/
def sampleRedisRaced : RedisPolicyCache.RedisPool String :=
  (exec sampleRedisCache.step (Pool.initial .empty) sampleRace).get (by decide +kernel)

/-- The pool without a race. -/
def sampleRedisRead : RedisPolicyCache.RedisPool String :=
  (execWhile sampleRedisCache.step (fun P e => P.Allows sampleRedisCache.Orderly e)
    (Pool.initial .empty) sampleReading).get (by decide +kernel)

/-- The cache in memory after a write under another key. -/
def sampleMemoryWritten : InMemoryPolicyCache String :=
  (exec InMemoryPolicyCache.step (.empty DEFAULT_POLICY_CACHE_TTL_SECONDS)
    [(0, .set ⟨"a|b", "c"⟩ sampleEntry none)]).get (by decide +kernel)

/-- What may be answered was written, under exactly that key, by an operation that began when the
latest invalidation that covers the key was completed. -/
theorem Current.mem_takeWhile {ν : Type} {lifetime : ℚ → ℚ} {journal : CacheJournal ν}
    {key : PolicyCacheKey} {entry : CachedPolicy ν} {now : ℚ}
    (h : Current lifetime journal key entry now) :
    ∃ d ∈ journal.takeWhile fun d => !d.2.covers key, d.2.writes key = true ∧
      (d.1, .looked key) ∈ journal.takeWhile fun d => !d.2.covers key := by
  obtain ⟨i, slot, ttlSeconds, writtenAt, since, between, before, rfl, -, -, -, hcovers⟩ := h
  have hsplit : since ++ (i, CacheDeed.wrote slot key entry ttlSeconds writtenAt) :: between ++
      (i, .looked key) :: before = (since ++ (i, .wrote slot key entry ttlSeconds writtenAt) ::
        (between ++ [(i, .looked key)])) ++ before := by simp
  have hnone : ∀ d ∈ since ++ (i, CacheDeed.wrote slot key entry ttlSeconds writtenAt) ::
      (between ++ [(i, .looked key)]), (!d.2.covers key) = true := by
    intro d hd
    simp only [List.mem_append, List.mem_cons, List.not_mem_nil, or_false] at hd
    rcases hd with hd | rfl | hd | rfl
    · simp [hcovers d (by simp [hd])]
    · rfl
    · simp [hcovers d (by simp [hd])]
    · rfl
  rw [hsplit, List.takeWhile_append_of_pos hnone]
  exact ⟨(i, .wrote slot key entry ttlSeconds writtenAt), by simp, by simp [CacheDeed.writes],
    by simp⟩

/-- Another key is joined to the same text, and a write overtakes an invalidation. -/
theorem policy_caches_answer_stale :
    (∃ cache : InMemoryPolicyCache String,
      Run InMemoryPolicyCache.step (.empty DEFAULT_POLICY_CACHE_TTL_SECONDS) cache ∧
      ∃ key entry, (cache.get key 1).1 = some entry ∧
        ¬Current InMemoryPolicyCache.lifetime cache.journal key entry 1) ∧
    ∃ P, Run sampleRedisCache.step (Pool.initial .empty) P ∧
      ∃ i key entry, P.returned i = some ⟨.get key, .ok (some entry)⟩ ∧
        ∀ before now, (i, .answered key now) :: before <:+ P.store.journal →
          ¬Current RedisPolicyCache.lifetime before key entry now := by
  refine ⟨⟨sampleMemoryWritten, runWhile_get _, ⟨"a", "b|c"⟩, sampleEntry, by decide +kernel, ?_⟩,
    sampleRedisRaced, runWhile_get _, 2, sampleKey, sampleEntry, by decide +kernel, ?_⟩
  · intro hcurrent
    have hnone : ∀ d ∈ sampleMemoryWritten.journal.takeWhile fun d => !d.2.covers ⟨"a", "b|c"⟩,
        d.2.writes ⟨"a", "b|c"⟩ = false := by decide +kernel
    obtain ⟨d, hd, hwrites, -⟩ := hcurrent.mem_takeWhile
    exact absurd (hwrites.symm.trans (hnone d hd)) (by simp)
  · intro before now hbefore hcurrent
    -- the read is answered last
    have hjournal : sampleRedisRaced.store.journal =
        (2, .answered sampleKey 6) :: sampleRedisRaced.store.journal.tail := by decide +kernel
    have hlast : ∀ d ∈ sampleRedisRaced.store.journal.tail, d.1 = 2 → d.2 = .looked sampleKey := by
      decide +kernel
    have heq : before = sampleRedisRaced.store.journal.tail := by
      rw [hjournal, List.suffix_cons_iff] at hbefore
      rcases hbefore with heq | hbefore
      · exact (List.cons.inj heq).2
      · cases hlast _ (hbefore.subset List.mem_cons_self) rfl
    -- the write began before the invalidation was completed
    have hlate : ∀ d ∈ before.takeWhile fun d => !d.2.covers sampleKey,
        d.2.writes sampleKey = true →
          (d.1, .looked sampleKey) ∉ before.takeWhile fun d => !d.2.covers sampleKey := by
      rw [heq]
      decide +kernel
    obtain ⟨d, hd, hwrites, hlooked⟩ := hcurrent.mem_takeWhile
    exact hlate d hd hwrites hlooked

section Correct

variable {ν : Type}

/-- In every run of the cache in memory, and in every run of the cache in Redis whose calls are
orderly, what is answered for a key that is alone with its text is current. -/
theorem policy_caches_correct (redis : RedisPolicyCache ν) {defaultTtlSeconds : ℚ}
    {cache : InMemoryPolicyCache ν} {P : RedisPolicyCache.RedisPool ν}
    (hmemory : Run InMemoryPolicyCache.step (.empty defaultTtlSeconds) cache)
    (hredis : RunWhile redis.step (fun P e => P.Allows redis.Orderly e) (Pool.initial .empty) P) :
    cache.Correct ∧ redis.Correct P := by
  refine ⟨⟨fun key now entry hkey hget => InMemoryPolicyCache.answer_current hmemory hkey hget,
    fun resourceType key now h => cache.get_invalidateResourceType h now⟩, ?_⟩
  have hsound : Sound redis.generationLaw.contract RedisStore.serve redis.Orderly
      (fun i t => redis.generationLaw.deedsOf i t = []) RedisPolicyCache.AnswersCurrent P :=
    redis.generationLaw.sound_of_run
      (fun i operation s _ hidle => RedisPolicyCache.safe_perform operation hidle)
      redis.lawful_empty rfl hredis
  constructor
  · intro i key entry hreturned
    obtain ⟨begun, hthread⟩ := Pool.threads_of_returned hreturned
    exact hsound.done_of_ret hthread key entry rfl rfl
  · intro resourceType key i j now later answer answer' answer'' s t t' hname hkey hbefore
      hinvalidate hafter
    rw [RedisPolicyCache.answer_of_runs hafter, RedisPolicyCache.answer_of_runs hbefore,
      RedisPolicyCache.answerAt_invalidateResourceType hname hkey hinvalidate]

end Correct

/-- A write followed by a read, which answers what was written. -/
theorem policy_caches_correct_sample :
    (sampleMemoryWritten.Correct ∧ sampleRedisCache.Correct sampleRedisRead) ∧
      sampleRedisRead.returned 1 = some ⟨.get sampleKey, .ok (some sampleEntry)⟩ :=
  ⟨policy_caches_correct sampleRedisCache (runWhile_get _) (runWhile_get _), by decide +kernel⟩

end Verixa.Authorization
