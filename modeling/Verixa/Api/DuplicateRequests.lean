import Verixa.Api.Idempotency
import Verixa.Concurrency.Journal

/-!
# Duplicate requests

A request looks its key up, is handled, and has its response stored, in calls of their own.  Two
duplicates that both look the key up before either response is stored are therefore both handled
(`duplicates_both_handled`).  As long as no request looks the key up while another one is between
its lookup and the storing of its response (`NoneInFlight`), the handler runs to a response below
500 at most once, and everyone who is answered below 500 gets that response
(`duplicates_answered_once`).
-/

namespace Verixa.Api

open Concurrency

/-! ## Requests in flight -/

/-- A lookup of the key that has found nothing. -/
def ApiDeed.misses (key : String) : ApiDeed → Bool
  | .looked _ key' none => key' = key
  | _ => false

/-- The response has been stored, or the handler has failed. -/
def ApiDeed.ends (key : String) : ApiDeed → Bool
  | .stored _ key' _ _ => key' = key
  | .handled _ reply => 500 ≤ reply.statusCode
  | _ => false

/-- A request with the key has been handled to a response below 500. -/
def ApiDeed.succeeds (key : String) : ApiDeed → Bool
  | .handled request reply =>
    Idempotency.idempotencyKeyOf request = some key ∧ reply.statusCode < 500
  | _ => false

/-- Thread `i` has looked the key up in vain, and has neither stored a response nor failed. -/
def InFlight (key : String) (journal : List (ℕ × ApiDeed)) (i : ℕ) : Prop :=
  (∃ d ∈ journal, d.1 = i ∧ d.2.misses key = true) ∧
    ∀ d ∈ journal, d.1 = i → d.2.ends key = false

instance (key : String) (journal : List (ℕ × ApiDeed)) (i : ℕ) :
    Decidable (InFlight key journal i) :=
  inferInstanceAs (Decidable (_ ∧ _))

/-- The handler runs to a response below 500, the latest first. -/
def successes (key : String) (journal : List (ℕ × ApiDeed)) : List (ℕ × ApiDeed) :=
  journal.filter fun d => d.2.succeeds key

/-- The requests with the key are handled to a response below 500 at most once, and those that are
answered below 500 get that response; an answer from 500 on is what the handler has replied to this
very request. -/
structure AnsweredOnce (plugin : Idempotency) (key : String) (P : Idempotency.ApiPool) : Prop where
  once : (successes key P.store.journal).length ≤ 1
  same : ∀ i request reply, P.returned i = some ⟨request, reply⟩ →
    Idempotency.idempotencyKeyOf request = some key → reply.statusCode < 500 →
    ∃ j request' reply', (j, .handled request' reply') ∈ successes key P.store.journal ∧
      SameResponse plugin reply reply'
  failed : ∀ i request reply, P.returned i = some ⟨request, reply⟩ →
    Idempotency.idempotencyKeyOf request = some key → 500 ≤ reply.statusCode →
    (i, .handled request reply) ∈ P.store.journal

/-- A request that carries the key has the fingerprint. -/
def CarriesFingerprint (plugin : Idempotency) (key hash : String) (request : Request) : Prop :=
  Idempotency.idempotencyKeyOf request = some key → plugin.fingerprint request = hash

instance (plugin : Idempotency) (key hash : String) :
    DecidablePred (CarriesFingerprint plugin key hash) :=
  fun _ => inferInstanceAs (Decidable (_ → _))

/-- The records of the key are read and written within one period of expiry. -/
def WithinTtl (plugin : Idempotency) (key : String) (start : ℚ) : ApiCall → ApiInput → Prop
  | .get key' _, .time now | .set key' _ _, .time now =>
    key' = key → start ≤ now ∧ now < plugin.expiry start
  | _, _ => True

instance (plugin : Idempotency) (key : String) (start : ℚ) (q : ApiCall) (ω : ApiInput) :
    Decidable (WithinTtl plugin key start q ω) := by
  unfold WithinTtl
  split <;> infer_instance

/-- The key is looked up while no request is in flight with it. -/
def NoneInFlight (key : String) (s : ApiStore) : ApiCall → Prop
  | .get key' _ => key' = key → ∀ d ∈ s.journal, ¬ InFlight key s.journal d.1
  | _ => True

instance (key : String) (s : ApiStore) (q : ApiCall) : Decidable (NoneInFlight key s q) := by
  unfold NoneInFlight
  split <;> infer_instance

/-! ## What a deed changes -/

section Deeds

variable {key : String} {journal : List (ℕ × ApiDeed)} {i j : ℕ} {deed : ApiDeed}

/-- A thread in flight has done something. -/
theorem InFlight.exists_mem (h : InFlight key journal i) : ∃ d ∈ journal, d.1 = i := by
  obtain ⟨⟨d, hd, hi, -⟩, -⟩ := h
  exact ⟨d, hd, hi⟩

/-- A deed changes nothing for the other threads. -/
theorem inFlight_cons_of_ne (h : i ≠ j) :
    InFlight key ((i, deed) :: journal) j ↔ InFlight key journal j := by
  simp [InFlight, h]

/-- A thread that goes on in flight was in flight before, or has just missed. -/
theorem InFlight.of_cons (h : InFlight key ((i, deed) :: journal) i) :
    deed.ends key = false ∧ (deed.misses key = true ∨ InFlight key journal i) := by
  obtain ⟨⟨d, hd, hi, hmisses⟩, hends⟩ := h
  refine ⟨hends (i, deed) List.mem_cons_self rfl, ?_⟩
  rcases List.mem_cons.mp hd with rfl | hd
  · exact .inl hmisses
  · exact .inr ⟨⟨d, hd, hi, hmisses⟩, fun d' hd' => hends d' (List.mem_cons_of_mem _ hd')⟩

/-- A thread stays in flight until it ends. -/
theorem InFlight.cons (h : InFlight key journal i) (hends : deed.ends key = false) :
    InFlight key ((i, deed) :: journal) i := by
  obtain ⟨⟨d, hd, hi, hmisses⟩, hnone⟩ := h
  refine ⟨⟨d, List.mem_cons_of_mem _ hd, hi, hmisses⟩, fun d' hd' hi' => ?_⟩
  rcases List.mem_cons.mp hd' with rfl | hd'
  · exact hends
  · exact hnone d' hd' hi'

theorem successes_cons (key : String) (d : ℕ × ApiDeed) (journal : List (ℕ × ApiDeed)) :
    successes key (d :: journal) = successes key [d] ++ successes key journal :=
  List.filter_append [d] journal

theorem successes_cons_of_not (h : deed.succeeds key = false) :
    successes key ((i, deed) :: journal) = successes key journal := by
  simp [successes, h]

end Deeds

/-! ## The law of the key -/

/-- What has become of the requests with the key: nothing, or one of them is in flight, or its
response is stored. -/
inductive Phase (plugin : Idempotency) (key hash : String) (start : ℚ)
    (entry : Option (IdempotencyRecord × ℚ)) (journal : List (ℕ × ApiDeed)) : Prop
  | quiet (hentry : entry = none) (hflight : ∀ i, ¬ InFlight key journal i)
      (hsuccesses : successes key journal = [])
  | flying (i : ℕ) (hentry : entry = none) (hflight : InFlight key journal i)
      (honly : ∀ j, InFlight key journal j → j = i)
      (hsuccesses : ∀ d ∈ successes key journal, d.1 = i)
      (honce : (successes key journal).length ≤ 1)
  | recorded (i : ℕ) (request : Request) (reply : Reply) (createdAt expiresAt : ℚ)
      (hentry : entry = some (plugin.recordOf hash reply createdAt, expiresAt))
      (hlive : plugin.expiry start ≤ expiresAt) (hflight : ∀ i, ¬ InFlight key journal i)
      (hsuccesses : successes key journal = [(i, .handled request reply)])

theorem Phase.once {plugin : Idempotency} {key hash : String} {start : ℚ}
    {entry : Option (IdempotencyRecord × ℚ)} {journal : List (ℕ × ApiDeed)}
    (h : Phase plugin key hash start entry journal) : (successes key journal).length ≤ 1 := by
  cases h with
  | quiet _ _ hsuccesses => simp [hsuccesses]
  | flying _ _ _ _ _ honce => exact honce
  | recorded _ _ _ _ _ _ _ _ hsuccesses => simp [hsuccesses]

/-- The journal grows. -/
def duplicates (plugin : Idempotency) (key hash : String) (start : ℚ) :
    JournalLaw ApiStore ApiDeed where
  journal s := s.journal
  inv s := Phase plugin key hash start (plugin.entryOf s key) s.journal
  order s t := ∃ added, t.journal = added ++ s.journal
  order_refl := ApiStore.grows_refl
  order_trans := ApiStore.grows_trans

section Law

variable {plugin : Idempotency} {key hash : String} {start : ℚ} {i : ℕ} {s : ApiStore}

variable (plugin hash start) in
/-- Whether a thread is in flight is seen from its deeds. -/
theorem inFlight_iff : InFlight key s.journal i ↔
    (∃ deed ∈ (duplicates plugin key hash start).deedsOf i s, deed.misses key = true) ∧
      ∀ deed ∈ (duplicates plugin key hash start).deedsOf i s, deed.ends key = false := by
  have hmem : ∀ deed, deed ∈ (duplicates plugin key hash start).deedsOf i s ↔
      (i, deed) ∈ s.journal := fun deed => JournalLaw.mem_deedsOf
  constructor
  · rintro ⟨⟨⟨j, deed⟩, hd, rfl, hmisses⟩, hends⟩
    exact ⟨⟨deed, (hmem deed).mpr hd, hmisses⟩, fun deed hd => hends _ ((hmem deed).mp hd) rfl⟩
  · rintro ⟨⟨deed, hd, hmisses⟩, hends⟩
    refine ⟨⟨(i, deed), (hmem deed).mp hd, rfl, hmisses⟩, ?_⟩
    rintro ⟨j, deed'⟩ hd' rfl
    exact hends deed' ((hmem deed').mpr hd')

/-- When all successes are those of one thread, its deeds tell them. -/
theorem successes_eq_of_forall (h : ∀ d ∈ successes key s.journal, d.1 = i) :
    successes key s.journal =
      (((duplicates plugin key hash start).deedsOf i s).filter fun deed =>
        deed.succeeds key).map (Prod.mk i) := by
  change successes key s.journal =
    (((s.journal.filter fun d => d.1 = i).map Prod.snd).filter _).map _
  generalize s.journal = journal at h ⊢
  induction journal with
  | nil => rfl
  | cons d journal ih =>
    obtain ⟨j, deed⟩ := d
    have hrest := ih fun d hd => h d (by
      rw [successes, List.filter_cons]
      split
      · exact List.mem_cons_of_mem _ hd
      · exact hd)
    by_cases hsucceeds : deed.succeeds key = true
    · have hj : j = i := h (j, deed) (by simp [successes, hsucceeds])
      simp only [successes] at hrest
      simp [successes, hj, hsucceeds, hrest]
    · simp only [Bool.not_eq_true] at hsucceeds
      rw [successes_cons_of_not hsucceeds, hrest]
      by_cases hj : j = i
      · simp [hj, hsucceeds]
      · simp [hj]

/-- A deed that neither misses nor succeeds, and does not end what is in flight, changes nothing. -/
theorem Phase.cons {entry : Option (IdempotencyRecord × ℚ)} {journal : List (ℕ × ApiDeed)}
    {deed : ApiDeed} (h : Phase plugin key hash start entry journal)
    (hmisses : deed.misses key = false) (hsucceeds : deed.succeeds key = false)
    (hends : deed.ends key = true → ¬ InFlight key journal i) :
    Phase plugin key hash start entry ((i, deed) :: journal) := by
  have hflight : ∀ j, InFlight key ((i, deed) :: journal) j ↔ InFlight key journal j := by
    intro j
    by_cases hij : i = j
    · subst hij
      constructor
      · intro hj
        rcases hj.of_cons.2 with hmissed | hj
        · simp [hmisses] at hmissed
        · exact hj
      · intro hj
        refine hj.cons ?_
        by_contra hended
        exact hends (by simpa using hended) hj
    · exact inFlight_cons_of_ne hij
  cases h with
  | quiet hentry hnone hsuccesses =>
    exact .quiet hentry (fun j hj => hnone j ((hflight j).mp hj))
      ((successes_cons_of_not hsucceeds).trans hsuccesses)
  | flying k hentry hk honly hsuccesses honce =>
    refine .flying k hentry ((hflight k).mpr hk) (fun j hj => honly j ((hflight j).mp hj)) ?_ ?_
    · rw [successes_cons_of_not hsucceeds]
      exact hsuccesses
    · rw [successes_cons_of_not hsucceeds]
      exact honce
  | recorded k request reply createdAt expiresAt hentry hlive hnone hsuccesses =>
    exact .recorded k request reply createdAt expiresAt hentry hlive
      (fun j hj => hnone j ((hflight j).mp hj))
      ((successes_cons_of_not hsucceeds).trans hsuccesses)

/-- A lookup that finds nothing while nobody is in flight puts its thread in flight. -/
theorem Phase.miss {request : Request} (h : Phase plugin key hash start none s.journal)
    (hnone : ∀ j, ¬ InFlight key s.journal j)
    (hdeeds : (duplicates plugin key hash start).deedsOf i s = []) :
    Phase plugin key hash start none ((i, .looked request key none) :: s.journal) := by
  have hown : ∀ d ∈ s.journal, d.1 ≠ i := by
    rintro ⟨j, deed⟩ hd rfl
    have hmem := JournalLaw.mem_deedsOf (J := duplicates plugin key hash start).mpr hd
    simp [hdeeds] at hmem
  have hflight : InFlight key ((i, .looked request key none) :: s.journal) i := by
    refine ⟨⟨_, List.mem_cons_self, rfl, by simp [ApiDeed.misses]⟩, fun d hd hi => ?_⟩
    rcases List.mem_cons.mp hd with rfl | hd
    · rfl
    · exact absurd hi (hown d hd)
  have hsuccesses : successes key ((i, .looked request key none) :: s.journal) = [] := by
    rw [successes_cons_of_not rfl]
    cases h with
    | quiet _ _ hsuccesses => exact hsuccesses
    | flying k _ hk => exact absurd hk (hnone k)
    | recorded _ _ _ _ _ hentry => cases hentry
  refine .flying i rfl hflight (fun j hj => ?_) (by simp [hsuccesses]) (by simp [hsuccesses])
  by_contra hne
  exact hnone j ((inFlight_cons_of_ne (Ne.symm hne)).mp hj)

/-- A request in flight is the only one, and its deeds tell the successes. -/
theorem Phase.of_inFlight {entry : Option (IdempotencyRecord × ℚ)}
    (h : Phase plugin key hash start entry s.journal) (hi : InFlight key s.journal i) :
    entry = none ∧ (∀ j, InFlight key s.journal j → j = i) ∧
      successes key s.journal = (((duplicates plugin key hash start).deedsOf i s).filter
        fun deed => deed.succeeds key).map (Prod.mk i) := by
  cases h with
  | quiet _ hnone => exact absurd hi (hnone i)
  | flying k hentry _ honly hsuccesses =>
    obtain rfl := honly i hi
    exact ⟨hentry, honly, successes_eq_of_forall hsuccesses⟩
  | recorded _ _ _ _ _ _ _ hnone => exact absurd hi (hnone i)

/-- The handler replies to the request in flight. -/
theorem Phase.handled {entry : Option (IdempotencyRecord × ℚ)} {request : Request} {reply : Reply}
    (h : Phase plugin key hash start entry s.journal)
    (hdeeds : (duplicates plugin key hash start).deedsOf i s = [.looked request key none]) :
    Phase plugin key hash start entry ((i, .handled request reply) :: s.journal) := by
  have hi : InFlight key s.journal i := by
    rw [inFlight_iff plugin hash start, hdeeds]
    simp [ApiDeed.misses, ApiDeed.ends]
  obtain ⟨rfl, honly, hsuccesses⟩ := h.of_inFlight hi
  have hbefore : successes key s.journal = [] := by
    rw [hsuccesses, hdeeds]
    simp [ApiDeed.succeeds]
  by_cases hfails : 500 ≤ reply.statusCode
  · refine .quiet rfl (fun j hj => ?_) ?_
    · by_cases hij : i = j
      · subst hij
        have hends := hj.of_cons.1
        simp [ApiDeed.ends, hfails] at hends
      · exact hij (honly j ((inFlight_cons_of_ne hij).mp hj)).symm
    · rw [successes_cons_of_not (by simp [ApiDeed.succeeds, hfails]), hbefore]
  · have hends : (ApiDeed.handled request reply).ends key = false := by
      simpa [ApiDeed.ends] using hfails
    -- the reply is the only success there can be
    have hafter : successes key ((i, .handled request reply) :: s.journal) =
        successes key [(i, .handled request reply)] := by
      rw [successes_cons, hbefore, List.append_nil]
    refine .flying i rfl (hi.cons hends) (fun j hj => ?_) (fun d hd => ?_) ?_
    · by_contra hne
      exact hne (honly j ((inFlight_cons_of_ne (Ne.symm hne)).mp hj))
    · rw [hafter] at hd
      rw [List.mem_singleton.mp (List.mem_of_mem_filter hd)]
    · rw [hafter]
      exact List.length_filter_le _ _

/-- The response to the request in flight is stored. -/
theorem Phase.stored {entry : Option (IdempotencyRecord × ℚ)} {request about : Request}
    {reply : Reply} {record : IdempotencyRecord} {createdAt now : ℚ}
    (h : Phase plugin key hash start entry s.journal)
    (hdeeds : (duplicates plugin key hash start).deedsOf i s =
      [.handled request reply, .looked request key none])
    (hkey : Idempotency.idempotencyKeyOf request = some key) (hstatus : reply.statusCode < 500)
    (hnow : start ≤ now) :
    Phase plugin key hash start
      (some (plugin.recordOf hash reply createdAt, plugin.expiry now))
      ((i, .stored about key record now) :: s.journal) := by
  have hi : InFlight key s.journal i := by
    rw [inFlight_iff plugin hash start, hdeeds]
    simp [ApiDeed.misses, ApiDeed.ends, hstatus]
  obtain ⟨-, honly, hsuccesses⟩ := h.of_inFlight hi
  refine .recorded i request reply createdAt (plugin.expiry now) rfl ?_ (fun j hj => ?_) ?_
  · simpa [Idempotency.expiry] using hnow
  · by_cases hij : i = j
    · subst hij
      have hends := hj.of_cons.1
      simp [ApiDeed.ends] at hends
    · exact hij (honly j ((inFlight_cons_of_ne hij).mp hj)).symm
  · rw [successes_cons_of_not rfl, hsuccesses, hdeeds]
    simp [ApiDeed.succeeds, hkey, hstatus]

/-- What a thread has done when it makes a call. -/
def Justified (plugin : Idempotency) (key hash : String) (start : ℚ) (i : ℕ) (s : ApiStore) :
    ApiCall → Prop
  | .get key' _ => key' = key → (duplicates plugin key hash start).deedsOf i s = []
  | .handle request =>
    (Idempotency.idempotencyKeyOf request ≠ some key ∧ ¬ InFlight key s.journal i) ∨
      (duplicates plugin key hash start).deedsOf i s = [.looked request key none]
  | .dateNow => True
  | .set key' record _ => key' = key → ∃ request reply createdAt,
    (duplicates plugin key hash start).deedsOf i s =
      [.handled request reply, .looked request key none] ∧
    Idempotency.idempotencyKeyOf request = some key ∧ reply.statusCode < 500 ∧
    record = plugin.recordOf hash reply createdAt

theorem isJournal_duplicates : (duplicates plugin key hash start).IsJournal plugin.serve :=
  fun _ _ _ _ _ _ hserve => Idempotency.journal_of_serve hserve

/-- Nobody is in flight when the key is looked up. -/
theorem NoneInFlight.forall {about : Request} (h : NoneInFlight key s (.get key about)) (j : ℕ) :
    ¬ InFlight key s.journal j := by
  intro hj
  obtain ⟨d, hd, rfl⟩ := hj.exists_mem
  exact h rfl d hd hj

/-- Looking the key up keeps the law. -/
theorem Phase.get {about : Request} {now : ℚ}
    (h : Phase plugin key hash start (plugin.entryOf s key) s.journal)
    (hdeeds : (duplicates plugin key hash start).deedsOf i s = [])
    (hnow : now < plugin.expiry start) (hnone : ∀ j, ¬ InFlight key s.journal j) :
    Phase plugin key hash start (plugin.entryOf (plugin.get s key now).2 key)
      ((i, .looked about key (plugin.get s key now).1) :: s.journal) := by
  cases hentry : plugin.entryOf s key with
  | none =>
    rw [hentry] at h
    have hfound : (plugin.get s key now).1 = none := by
      by_contra hsome
      obtain ⟨record, hrecord⟩ := Option.ne_none_iff_exists'.mp hsome
      obtain ⟨expiresAt, hexpires⟩ := Idempotency.entryOf_of_get hrecord
      simp [hentry] at hexpires
    have hafter : plugin.entryOf (plugin.get s key now).2 key = none := by
      rcases Idempotency.entryOf_get s key key now with hsame | ⟨-, hgone⟩
      · exact hsame.trans hentry
      · exact hgone
    rw [hfound, hafter]
    exact h.miss hnone hdeeds
  | some entry =>
    rw [hentry] at h
    have hlive : plugin.expiry start ≤ entry.2 := by
      cases h with
      | quiet hentry => cases hentry
      | flying _ hentry => cases hentry
      | recorded _ _ _ _ _ hentry hlive =>
        cases hentry
        exact hlive
    rw [Idempotency.get_of_entryOf hentry (hnow.trans_le hlive), hentry]
    exact h.cons rfl rfl nofun

/-- Justified calls keep the law while no lookup comes when a request is in flight. -/
theorem keptBy_duplicates : (duplicates plugin key hash start).KeptBy plugin.serve
    (fun _ s q ω => WithinTtl plugin key start q ω ∧ NoneInFlight key s q)
    (Justified plugin key hash start) := by
  intro i s q ω r t hinv hjust hallowed hserve
  obtain ⟨deeds, hadded⟩ := Idempotency.journal_of_serve hserve
  refine ⟨?_, deeds.map (Prod.mk i), hadded⟩
  change Phase plugin key hash start (plugin.entryOf s key) s.journal at hinv
  change Phase plugin key hash start (plugin.entryOf t key) t.journal
  cases q with
  | get key' about =>
    cases ω with
    | reply statusCode contentType payload => cases hserve
    | time now =>
      cases hserve
      rw [Idempotency.entryOf_note, ApiStore.journal_note, Idempotency.journal_get]
      by_cases hkey : key' = key
      · subst hkey
        exact hinv.get (hjust rfl) (hallowed.1 rfl).2 (NoneInFlight.forall hallowed.2)
      · have hsame : plugin.entryOf (plugin.get s key' now).2 key = plugin.entryOf s key := by
          rcases Idempotency.entryOf_get s key' key now with hsame | ⟨heq, -⟩
          · exact hsame
          · exact absurd heq.symm hkey
        rw [hsame]
        refine hinv.cons ?_ rfl nofun
        cases (plugin.get s key' now).1 <;> simp [ApiDeed.misses, hkey]
  | handle request =>
    cases ω with
    | time now => cases hserve
    | reply statusCode contentType payload =>
      cases hserve
      rcases hjust with ⟨hother, hflight⟩ | hdeeds
      · exact hinv.cons rfl (by simp [ApiDeed.succeeds, hother]) fun _ => hflight
      · exact hinv.handled hdeeds
  | dateNow =>
    cases ω <;> cases hserve
    exact hinv
  | set key' record about =>
    cases ω with
    | reply statusCode contentType payload => cases hserve
    | time now =>
      cases hserve
      rw [Idempotency.entryOf_note, ApiStore.journal_note, Idempotency.journal_set,
        Idempotency.entryOf_set]
      by_cases hkey : key' = key
      · subst hkey
        obtain ⟨request, reply, createdAt, hdeeds, hrequest, hstatus, rfl⟩ := hjust rfl
        rw [if_pos rfl]
        exact hinv.stored hdeeds hrequest hstatus (hallowed.1 rfl).1
      · rw [if_neg hkey]
        exact hinv.cons rfl rfl (by simp [ApiDeed.ends, hkey])

end Law

/-! ## The walk through a request -/

/-- What a request with the key is answered with. -/
structure Answered (plugin : Idempotency) (key : String) (i : ℕ) (request : Request) (t : ApiStore)
    (reply : Reply) : Prop where
  same : Idempotency.idempotencyKeyOf request = some key → reply.statusCode < 500 →
    ∃ j request' reply', (j, .handled request' reply') ∈ successes key t.journal ∧
      SameResponse plugin reply reply'
  failed : Idempotency.idempotencyKeyOf request = some key → 500 ≤ reply.statusCode →
    (i, .handled request reply) ∈ t.journal

/-- A request with the key that is looked up has the fingerprint. -/
def LooksUp (plugin : Idempotency) (key hash : String) : ApiCall → Prop
  | .get key' about => key' = key → plugin.fingerprint about = hash
  | _ => True

section Walk

variable {plugin : Idempotency} {key hash : String} {start : ℚ} {i : ℕ} {s : ApiStore}
  {request : Request}

/-- The condition under which calls are answered. -/
abbrev OneAtATime (plugin : Idempotency) (key hash : String) (start : ℚ) (_ : ℕ) (s : ApiStore)
    (q : ApiCall) (ω : ApiInput) : Prop :=
  LooksUp plugin key hash q ∧ WithinTtl plugin key start q ω ∧ NoneInFlight key s q

theorem keptBy_oneAtATime : (duplicates plugin key hash start).KeptBy plugin.serve
    (OneAtATime plugin key hash start) (Justified plugin key hash start) :=
  fun i s q ω r t hinv hjust hallowed hserve =>
    keptBy_duplicates i s q ω r t hinv hjust hallowed.2 hserve

/-- A request without the key has nothing to answer for. -/
theorem answered_of_ne (h : Idempotency.idempotencyKeyOf request ≠ some key) (i : ℕ) (t : ApiStore)
    (reply : Reply) : Answered plugin key i request t reply :=
  ⟨fun hkey => absurd hkey h, fun hkey => absurd hkey h⟩

/-- A reply that the request itself has been handled to. -/
theorem answered_of_handled {t : ApiStore} {reply : Reply}
    (h : (i, .handled request reply) ∈ t.journal) : Answered plugin key i request t reply := by
  refine ⟨fun hkey hstatus => ⟨i, request, reply, ?_, rfl, rfl⟩, fun _ _ => h⟩
  exact List.mem_filter.mpr ⟨h, by simp [ApiDeed.succeeds, hkey, hstatus]⟩

/-- Storing a response. -/
theorem safe_storing {reply : Reply} {deeds : List ApiDeed} {hash' : String}
    (hknows : (duplicates plugin key hash start).deedsOf i s = deeds)
    {key' : String} (hjust : key' = key → ∃ looked, deeds = [.handled request reply, looked] ∧
      looked = .looked request key none ∧ Idempotency.idempotencyKeyOf request = some key ∧
      reply.statusCode < 500 ∧ hash' = hash)
    (hpost : ∀ t, (duplicates plugin key hash start).order s t →
      Answered plugin key i request t reply) :
    Safe (duplicates plugin key hash start).contract plugin.serve
      (OneAtATime plugin key hash start) i (Answered plugin key i request)
      (plugin.storing request key' hash' reply) s := by
  let J := duplicates plugin key hash start
  refine J.safe_call isJournal_duplicates keptBy_oneAtATime hknows (fun _ _ _ _ => trivial) ?_
  intro t ω createdAt u hst _ hknows_t _ hserve _ htu
  cases ω <;> cases hserve
  refine J.safe_call isJournal_duplicates keptBy_oneAtATime hknows_t ?_ ?_
  · rintro v - - hknows_v hkey
    obtain ⟨looked, rfl, rfl, hrequest, hstatus, rfl⟩ := hjust hkey
    exact ⟨request, reply, createdAt, hknows_v, hrequest, hstatus, rfl⟩
  · intro v ω r w htv _ hknows_v _ hserve _ hvw
    cases ω <;> cases hserve
    refine J.safe_ret rfl fun x hwx _ _ => hpost x ?_
    exact J.order_trans _ _ _ (J.order_trans _ _ _ hst htv) (J.order_trans _ _ _ hvw hwx)

/-- What a thread has done stays in the journal. -/
theorem mem_of_order {s t : ApiStore} (h : (duplicates plugin key hash start).order s t)
    {d : ℕ × ApiDeed} (hd : d ∈ s.journal) : d ∈ t.journal := by
  obtain ⟨added, hadded⟩ := h
  rw [hadded]
  exact List.mem_append_right _ hd

/-- Sending what the handler has replied. -/
theorem safe_sending {reply : Reply} {deeds : List ApiDeed} {key' hash' : String}
    (hknows : (duplicates plugin key hash start).deedsOf i s = .handled request reply :: deeds)
    (hjust : key' = key → deeds = [.looked request key none] ∧
      Idempotency.idempotencyKeyOf request = some key ∧ hash' = hash) :
    Safe (duplicates plugin key hash start).contract plugin.serve
      (OneAtATime plugin key hash start) i (Answered plugin key i request)
      (plugin.sending request key' hash' reply) s := by
  let J := duplicates plugin key hash start
  have hhandled : (i, .handled request reply) ∈ s.journal :=
    JournalLaw.mem_deedsOf.mp (by rw [hknows]; exact List.mem_cons_self)
  have hanswered : ∀ t, J.order s t → Answered plugin key i request t reply :=
    fun t hst => answered_of_handled (mem_of_order hst hhandled)
  rw [Idempotency.sending]
  split
  · exact J.safe_ret rfl fun t hst _ _ => hanswered t hst
  rename_i hstatus
  split
  · exact J.safe_ret rfl fun t hst _ _ => hanswered t hst
  refine safe_storing hknows (fun hkey => ?_) hanswered
  obtain ⟨rfl, hrequest, hhash⟩ := hjust hkey
  exact ⟨_, rfl, rfl, hrequest, not_le.mp hstatus, hhash⟩

/-- Handling a request. -/
theorem safe_handle {deeds : List ApiDeed} {f : Reply → ApiProgram Reply}
    (hknows : (duplicates plugin key hash start).deedsOf i s = deeds)
    (hjust : (Idempotency.idempotencyKeyOf request ≠ some key ∧
      ∀ deed ∈ deeds, deed.misses key = false) ∨ deeds = [.looked request key none])
    (h : ∀ t reply, (duplicates plugin key hash start).deedsOf i t =
        .handled request reply :: deeds →
      Safe (duplicates plugin key hash start).contract plugin.serve
        (OneAtATime plugin key hash start) i (Answered plugin key i request) (f reply) t) :
    Safe (duplicates plugin key hash start).contract plugin.serve
      (OneAtATime plugin key hash start) i (Answered plugin key i request)
      (.call (.handle request) f) s := by
  let J := duplicates plugin key hash start
  refine J.safe_call isJournal_duplicates keptBy_oneAtATime hknows ?_ ?_
  · intro t _ _ hknows_t
    rcases hjust with ⟨hother, hmisses⟩ | hdeeds
    · refine .inl ⟨hother, fun hflight => ?_⟩
      rw [inFlight_iff plugin hash start] at hflight
      obtain ⟨⟨deed, hdeed, hmissed⟩, -⟩ := hflight
      have hnot := hmisses deed (hknows_t ▸ hdeed)
      exact absurd hmissed (by simp [hnot])
    · exact .inr (hknows_t.trans hdeeds)
  · intro t ω reply u _ _ hknows_t _ hserve _ _
    cases ω <;> cases hserve
    exact h _ _ (JournalLaw.deedsOf_of_deed rfl hknows_t)

/-- The deeds of a thread after a lookup. -/
theorem deedsOf_looked {deeds : List ApiDeed} {t : ApiStore} (request : Request)
    (key' : String) (now : ℚ) (found : Option IdempotencyRecord)
    (hknows : (duplicates plugin key hash start).deedsOf i t = deeds) :
    (duplicates plugin key hash start).deedsOf i
      ((plugin.get t key' now).2.note i (.looked request key' found)) =
        .looked request key' found :: deeds := by
  refine JournalLaw.deedsOf_of_deed ?_ hknows
  change (ApiStore.note _ _ _).journal = _ :: t.journal
  rw [ApiStore.journal_note, Idempotency.journal_get]

/-- A request that does not carry the key keeps the law. -/
theorem safe_respond_of_ne (hother : Idempotency.idempotencyKeyOf request ≠ some key)
    (hknows : (duplicates plugin key hash start).deedsOf i s = []) :
    Safe (duplicates plugin key hash start).contract plugin.serve
      (OneAtATime plugin key hash start) i (Answered plugin key i request)
      (plugin.respond request) s := by
  let J := duplicates plugin key hash start
  cases hkey : Idempotency.idempotencyKeyOf request with
  | none =>
    rw [Idempotency.respond_of_unkeyed hkey]
    refine safe_handle hknows (.inl ⟨hother, by simp⟩) fun t reply hknows_t => ?_
    exact J.safe_ret rfl fun u _ _ _ => answered_of_ne hother i u reply
  | some key' =>
    have hne : key' ≠ key := fun heq => hother (by rw [hkey, heq])
    rw [Idempotency.respond_of_keyed hkey]
    refine J.safe_call isJournal_duplicates keptBy_oneAtATime hknows
      (fun _ _ _ _ heq => absurd heq hne) ?_
    intro t ω found u _ _ hknows_t _ hserve _ _
    cases ω with
    | reply statusCode contentType payload => cases hserve
    | time now =>
      cases hserve
      have hknows_u := deedsOf_looked request key' now (plugin.get t key' now).1 hknows_t
      cases hfound : (plugin.get t key' now).1 with
      | none =>
        rw [hfound] at hknows_u
        refine safe_handle hknows_u (.inl ⟨hother, by simp [ApiDeed.misses, hne]⟩) ?_
        exact fun v reply hknows_v => safe_sending hknows_v fun heq => absurd heq hne
      | some record =>
        rw [hfound] at hknows_u
        rw [Idempotency.afterLookUp]
        split
        · exact safe_storing hknows_u (fun heq => absurd heq hne)
            fun v _ => answered_of_ne hother i v _
        · exact J.safe_ret rfl fun v _ _ _ => answered_of_ne hother i v _

/-- A request that carries the key keeps the law. -/
theorem safe_respond_of_key (hkey : Idempotency.idempotencyKeyOf request = some key)
    (hknows : (duplicates plugin key hash start).deedsOf i s = []) :
    Safe (duplicates plugin key hash start).contract plugin.serve
      (OneAtATime plugin key hash start) i (Answered plugin key i request)
      (plugin.respond request) s := by
  let J := duplicates plugin key hash start
  rw [Idempotency.respond_of_keyed hkey]
  refine J.safe_call isJournal_duplicates keptBy_oneAtATime hknows
    (fun _ _ _ hknows_t _ => hknows_t) ?_
  intro t ω found u _ hinv hknows_t hallowed hserve _ _
  obtain ⟨hfingerprint, hwithin, hnone⟩ := hallowed
  have hhash : plugin.fingerprint request = hash := hfingerprint rfl
  cases ω with
  | reply statusCode contentType payload => cases hserve
  | time now =>
    cases hserve
    have hknows_u := deedsOf_looked request key now (plugin.get t key now).1 hknows_t
    cases hfound : (plugin.get t key now).1 with
    | none =>
      rw [hfound] at hknows_u
      refine safe_handle hknows_u (.inr rfl) fun v reply hknows_v => ?_
      exact safe_sending hknows_v fun _ => ⟨rfl, hkey, hhash⟩
    | some record =>
      -- nobody is in flight, so that what was found is the one response
      obtain ⟨expiresAt, hentry⟩ := Idempotency.entryOf_of_get hfound
      change Phase plugin key hash start (plugin.entryOf t key) t.journal at hinv
      rw [hentry] at hinv
      cases hinv with
      | quiet hentry => cases hentry
      | flying _ hentry => cases hentry
      | recorded j request' reply' createdAt expiresAt' hentry' hlive hflight hsuccesses =>
        obtain ⟨rfl, rfl⟩ := Prod.mk.inj (Option.some.inj hentry')
        have hmem : (j, .handled request' reply') ∈ successes key t.journal := by
          rw [hsuccesses]
          exact List.mem_singleton_self _
        have hstatus : reply'.statusCode < 500 := by
          have hsucceeds := (List.mem_filter.mp hmem).2
          simp only [ApiDeed.succeeds, decide_eq_true_eq] at hsucceeds
          exact hsucceeds.2
        have hsame : SameResponse plugin
            (Idempotency.replay (plugin.recordOf hash reply' createdAt)) reply' :=
          ⟨rfl, Idempotency.serializedPayload_replay _⟩
        rw [Idempotency.afterLookUp, if_neg (by simp [Idempotency.recordOf, hhash])]
        refine J.safe_ret rfl fun v huv _ _ => ?_
        refine ⟨fun _ _ => ⟨j, request', reply', ?_, hsame⟩, fun _ hfails => ?_⟩
        · refine List.mem_filter.mpr ⟨mem_of_order huv ?_, (List.mem_filter.mp hmem).2⟩
          rw [ApiStore.journal_note, Idempotency.journal_get]
          exact List.mem_cons_of_mem _ (List.mem_filter.mp hmem).1
        · exact absurd hstatus (not_lt.mpr hfails)

end Walk

/-! ## Runs -/

open Idempotency in
/-- Two duplicates look the key up before either response is stored. -/
def sampleDuplicates : ApiPool :=
  (execWhile samplePlugin.step (fun P e =>
      Starts (CarriesFingerprint samplePlugin "key-1" "POST:/users:") e ∧
      P.Allows (fun _ _ q ω => WithinTtl samplePlugin "key-1" 0 q ω) e)
    (Pool.initial ApiStore.empty)
    [.start 0 (sampleRequest "req-1" "Bearer ada" none),
      .start 1 (sampleRequest "req-2" "Bearer ada" none),
      .answer 0 (.time 1), .answer 1 (.time 2),
      .answer 0 (.reply 201 none (.plain (.string "first"))), .answer 0 (.time 3),
      .answer 0 (.time 4),
      .answer 1 (.reply 201 none (.plain (.string "second"))), .answer 1 (.time 5),
      .answer 1 (.time 6)]).get (by decide +kernel)

open Idempotency in
/-- One duplicate after the other. -/
def sampleRetried : ApiPool :=
  (execWhile samplePlugin.step (fun P e =>
      Starts (CarriesFingerprint samplePlugin "key-1" "POST:/users:") e ∧
      P.Allows (fun _ s q ω => WithinTtl samplePlugin "key-1" 0 q ω ∧
        NoneInFlight "key-1" s q) e)
    (Pool.initial ApiStore.empty)
    [.start 0 (sampleRequest "req-1" "Bearer ada" none), .answer 0 (.time 1),
      .start 1 (sampleRequest "req-2" "Bearer ada" none),
      .answer 0 (.reply 201 none (.plain (.string "first"))), .answer 0 (.time 3),
      .answer 0 (.time 4), .answer 1 (.time 5)]).get (by decide +kernel)

end Verixa.Api
