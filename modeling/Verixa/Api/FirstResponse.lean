import Verixa.Api.Idempotency

/-!
# The first stored response

A response is stored under its key, and the reply to a conflicting request is stored there like any
other: it replaces the response that was to be replayed (`conflict_replaces_response`).  As long as
no request meets a record of another fingerprint under the key (`MeetsItself`), every request with
the key and the fingerprint of the first response gets this response until it expires
(`first_response_wins`).
-/

namespace Verixa.Api

open Concurrency

/-- The key is looked up before its record expires. -/
def BeforeExpiry (key : String) (expiresAt : ℚ) : ApiCall → ApiInput → Prop
  | .get key' _, .time now => key' = key → now < expiresAt
  | _, _ => True

instance (key : String) (expiresAt : ℚ) (q : ApiCall) (ω : ApiInput) :
    Decidable (BeforeExpiry key expiresAt q ω) :=
  match q, ω with
  | .get key' _, .time now => inferInstanceAs (Decidable (key' = key → now < expiresAt))
  | .get _ _, .reply _ _ _ | .handle _, _ | .dateNow, _ | .set _ _ _, _ => .isTrue trivial

/-- A request that finds a record under the key finds one of its own fingerprint. -/
def MeetsItself (plugin : Idempotency) (key : String) (s : ApiStore) : ApiCall → ApiInput → Prop
  | .get key' about, .time now => key' = key →
    ∀ record ∈ (plugin.get s key' now).1, record.requestHash = plugin.fingerprint about
  | _, _ => True

instance (plugin : Idempotency) (key : String) (s : ApiStore) (q : ApiCall) (ω : ApiInput) :
    Decidable (MeetsItself plugin key s q ω) :=
  match q, ω with
  | .get key' about, .time now => inferInstanceAs (Decidable (key' = key →
      ∀ record ∈ (plugin.get s key' now).1, record.requestHash = plugin.fingerprint about))
  | .get _ _, .reply _ _ _ | .handle _, _ | .dateNow, _ | .set _ _ _, _ => .isTrue trivial

section Runs

variable {plugin : Idempotency} {allowed : ℕ → ApiStore → ApiCall → ApiInput → Prop} {i : ℕ}
  {key : String} {request : Request} {s t : ApiStore} {reply : Reply} {record : IdempotencyRecord}
  {expiresAt : ℚ}

/-! ## What a run does -/

/-- A run that begins with a lookup. -/
theorem runs_get {f : Option IdempotencyRecord → ApiProgram Reply}
    (h : Runs plugin.serve allowed i (.call (.get key request) f) s reply t) :
    ∃ now, allowed i s (.get key request) (.time now) ∧
      Runs plugin.serve allowed i (f (plugin.get s key now).1)
        ((plugin.get s key now).2.note i (.looked request key (plugin.get s key now).1))
        reply t := by
  obtain ⟨found, u, ⟨ω, hallowed, hserve⟩, hrest⟩ := runs_call.mp h
  cases ω with
  | reply statusCode contentType payload => cases hserve
  | time now =>
    cases hserve
    exact ⟨now, hallowed, hrest⟩

/-- A run that begins with the handler. -/
theorem runs_handle {f : Reply → ApiProgram Reply}
    (h : Runs plugin.serve allowed i (.call (.handle request) f) s reply t) :
    ∃ handled : Reply, handled.replayed = false ∧
      Runs plugin.serve allowed i (f handled) (s.note i (.handled request handled)) reply t := by
  obtain ⟨handled, u, ⟨ω, -, hserve⟩, hrest⟩ := runs_call.mp h
  cases ω with
  | time now => cases hserve
  | reply statusCode contentType payload =>
    cases hserve
    exact ⟨_, rfl, hrest⟩

/-- Storing a reply. -/
theorem runs_storing {hash : String} {answer : Reply}
    (h : Runs plugin.serve allowed i (plugin.storing request key hash answer) s reply t) :
    reply = answer ∧ ∃ createdAt now, t =
      (plugin.set s key (plugin.recordOf hash answer createdAt) now).note i
        (.stored request key (plugin.recordOf hash answer createdAt) now) := by
  obtain ⟨createdAt, u, ⟨ω, -, hserve⟩, hrest⟩ := runs_call.mp h
  obtain ⟨stored, v, ⟨ω', -, hserve'⟩, hret⟩ := runs_call.mp hrest
  obtain ⟨rfl, rfl⟩ := runs_ret.mp hret
  cases ω with
  | reply statusCode contentType payload => cases hserve
  | time now =>
    cases hserve
    cases ω' with
    | reply statusCode contentType payload => cases hserve'
    | time now' =>
      cases hserve'
      exact ⟨rfl, createdAt, now', rfl⟩

/-- A reply of the handler that is below 500 is stored, and any other is not. -/
theorem runs_sending {hash : String} {answer : Reply} (hanswer : answer.replayed = false)
    (h : Runs plugin.serve allowed i (plugin.sending request key hash answer) s reply t) :
    reply = answer ∧ ((500 ≤ answer.statusCode ∧ t = s) ∨
      (answer.statusCode < 500 ∧ ∃ createdAt now, t =
        (plugin.set s key (plugin.recordOf hash answer createdAt) now).note i
          (.stored request key (plugin.recordOf hash answer createdAt) now))) := by
  rw [Idempotency.sending] at h
  split at h
  · rename_i hfails
    obtain ⟨rfl, rfl⟩ := runs_ret.mp h
    exact ⟨rfl, .inl ⟨hfails, rfl⟩⟩
  rename_i hbelow
  rw [hanswer, if_neg Bool.false_ne_true] at h
  obtain ⟨rfl, hstored⟩ := runs_storing h
  exact ⟨rfl, .inr ⟨not_le.mp hbelow, hstored⟩⟩

/-! ## What is recorded -/

/-- Storing a reply puts its record under the key. -/
theorem records_of_stored {createdAt now : ℚ} (ht : t =
      (plugin.set s key (plugin.recordOf (plugin.fingerprint request) reply createdAt) now).note i
        (.stored request key (plugin.recordOf (plugin.fingerprint request) reply createdAt) now))
    (hentry : plugin.entryOf t key = some (record, expiresAt)) :
    Records plugin request reply record := by
  rw [ht, Idempotency.entryOf_note, Idempotency.entryOf_set, if_pos rfl] at hentry
  obtain ⟨rfl, -⟩ := Prod.mk.inj (Option.some.inj hentry)
  exact records_recordOf plugin request reply createdAt

/-- After a request has been answered below 500 the record under its key, if there is one, is that
of the answer. -/
theorem records_of_runs (hkey : Idempotency.idempotencyKeyOf request = some key)
    (h : Runs plugin.serve allowed i (plugin.respond request) s reply t)
    (hbelow : reply.statusCode < 500)
    (hentry : plugin.entryOf t key = some (record, expiresAt)) :
    Records plugin request reply record := by
  rw [Idempotency.respond_of_keyed hkey] at h
  obtain ⟨now, -, hrest⟩ := runs_get h
  cases hfound : (plugin.get s key now).1 with
  | none =>
    rw [hfound] at hrest
    obtain ⟨handled, hreplayed, hsent⟩ := runs_handle hrest
    obtain ⟨rfl, ⟨hfails, -⟩ | ⟨-, createdAt, now', ht⟩⟩ := runs_sending hreplayed hsent
    · exact absurd hbelow (not_lt.mpr hfails)
    · exact records_of_stored ht hentry
  | some found =>
    rw [hfound, Idempotency.afterLookUp] at hrest
    split at hrest
    · obtain ⟨rfl, createdAt, now', ht⟩ := runs_storing hrest
      exact records_of_stored ht hentry
    · rename_i hsame
      obtain ⟨rfl, rfl⟩ := runs_ret.mp hrest
      obtain ⟨expiresAt', hbefore⟩ := Idempotency.entryOf_of_get hfound
      rw [Idempotency.entryOf_note] at hentry
      rcases Idempotency.entryOf_get s key key now with hkept | ⟨-, hgone⟩
      · rw [hkept, hbefore] at hentry
        obtain ⟨rfl, -⟩ := Prod.mk.inj (Option.some.inj hentry)
        exact ⟨not_not.mp hsame, rfl, (Idempotency.serializedPayload_replay _).symm⟩
      · rw [hgone] at hentry
        cases hentry

/-! ## What is kept -/

/-- The condition under which the record of the key is neither lost nor replaced. -/
abbrev Undisturbed (plugin : Idempotency) (key : String) (expiresAt : ℚ) (_ : ℕ) (s : ApiStore)
    (q : ApiCall) (ω : ApiInput) : Prop :=
  BeforeExpiry key expiresAt q ω ∧ MeetsItself plugin key s q ω

/-- A request with the key gets the recorded response, and leaves the record. -/
theorem replay_of_runs (hentry : plugin.entryOf s key = some (record, expiresAt))
    (hkey : Idempotency.idempotencyKeyOf request = some key)
    (h : Runs plugin.serve (Undisturbed plugin key expiresAt) i (plugin.respond request) s reply
      t) :
    reply = Idempotency.replay record ∧ plugin.entryOf t key = some (record, expiresAt) := by
  rw [Idempotency.respond_of_keyed hkey] at h
  obtain ⟨now, ⟨hbefore, hmeets⟩, hrest⟩ := runs_get h
  have hget := Idempotency.get_of_entryOf hentry (hbefore rfl)
  have hsame : record.requestHash = plugin.fingerprint request :=
    hmeets rfl record (by rw [hget]; exact rfl)
  rw [hget, Idempotency.afterLookUp, if_neg (not_not.mpr hsame)] at hrest
  obtain ⟨rfl, rfl⟩ := runs_ret.mp hrest
  exact ⟨rfl, hentry⟩

/-- A request without the key leaves the record. -/
theorem entryOf_of_runs_of_ne (hentry : plugin.entryOf s key = some (record, expiresAt))
    (hother : Idempotency.idempotencyKeyOf request ≠ some key)
    (h : Runs plugin.serve allowed i (plugin.respond request) s reply t) :
    plugin.entryOf t key = some (record, expiresAt) := by
  cases hkey : Idempotency.idempotencyKeyOf request with
  | none =>
    rw [Idempotency.respond_of_unkeyed hkey] at h
    obtain ⟨handled, -, hrest⟩ := runs_handle h
    obtain ⟨rfl, rfl⟩ := runs_ret.mp hrest
    exact hentry
  | some key' =>
    have hne : key' ≠ key := fun heq => hother (by rw [hkey, heq])
    rw [Idempotency.respond_of_keyed hkey] at h
    obtain ⟨now, -, hrest⟩ := runs_get h
    have hlooked : plugin.entryOf (plugin.get s key' now).2 key = some (record, expiresAt) := by
      rcases Idempotency.entryOf_get s key' key now with hkept | ⟨heq, -⟩
      · exact hkept.trans hentry
      · exact absurd heq.symm hne
    -- storing under another key
    have hstored : ∀ (u : ApiStore) (answer : Reply) (hash : String) (createdAt now' : ℚ),
        plugin.entryOf u key = some (record, expiresAt) → plugin.entryOf
          ((plugin.set u key' (plugin.recordOf hash answer createdAt) now').note i
            (.stored request key' (plugin.recordOf hash answer createdAt) now')) key =
          some (record, expiresAt) := by
      intro u answer hash createdAt now' hu
      rw [Idempotency.entryOf_note, Idempotency.entryOf_set, if_neg hne, hu]
    cases hfound : (plugin.get s key' now).1 with
    | none =>
      rw [hfound] at hrest
      obtain ⟨handled, hreplayed, hsent⟩ := runs_handle hrest
      obtain ⟨rfl, ⟨-, rfl⟩ | ⟨-, createdAt, now', rfl⟩⟩ := runs_sending hreplayed hsent
      · exact hlooked
      · exact hstored _ _ _ _ _ hlooked
    | some found =>
      rw [hfound, Idempotency.afterLookUp] at hrest
      split at hrest
      · obtain ⟨rfl, createdAt, now', rfl⟩ := runs_storing hrest
        exact hstored _ _ _ _ _ hlooked
      · obtain ⟨rfl, rfl⟩ := runs_ret.mp hrest
        exact hlooked

/-- A sequence of requests leaves the record. -/
theorem entryOf_of_inTurn
    (h : InTurn plugin.serve (Undisturbed plugin key expiresAt) plugin.respond s t)
    (hentry : plugin.entryOf s key = some (record, expiresAt)) :
    plugin.entryOf t key = some (record, expiresAt) := by
  refine h.invariant (I := fun u => plugin.entryOf u key = some (record, expiresAt)) hentry ?_
  intro u v j request' reply' hu hruns
  by_cases hkey : Idempotency.idempotencyKeyOf request' = some key
  · exact (replay_of_runs hu hkey hruns).2
  · exact entryOf_of_runs_of_ne hu hkey hruns

end Runs

/-! ## The first response wins -/

open Idempotency in
/-- A request is answered, and its response is recorded for a day. -/
def sampleAnswered : Reply × ApiStore :=
  ((samplePlugin.respond (sampleRequest "req-1" "Bearer ada" none)).runAllowed samplePlugin.serve
    (fun _ _ _ _ => True) 0 ApiStore.empty
    [.time 1, .reply 201 none (.plain (.string "first")), .time 2, .time 3]).get
    (by decide +kernel)

open Idempotency in
/-- A request with the same key and another body is answered as a conflict. -/
def sampleConflict : Reply × ApiStore :=
  ((samplePlugin.respond (sampleRequest "req-2" "Bearer ada" (some (.string "other")))).runAllowed
    samplePlugin.serve (fun _ _ q ω => BeforeExpiry "key-1" 86400003 q ω) 0 sampleAnswered.2
    [.time 4, .time 5, .time 6]).get (by decide +kernel)

open Idempotency in
/-- The first request comes again. -/
def sampleAfterConflict : Reply × ApiStore :=
  ((samplePlugin.respond (sampleRequest "req-3" "Bearer ada" none)).runAllowed
    samplePlugin.serve (fun _ _ q ω => BeforeExpiry "key-1" 86400003 q ω) 0 sampleConflict.2
    [.time 7, .time 8, .time 9]).get (by decide +kernel)

open Idempotency in
/-- A conflict replaces the response that was recorded: the request that comes again before this
expires is answered as a conflict. -/
theorem conflict_replaces_response :
    ∃ (reply reply' : Reply) (t u v : ApiStore) (record : IdempotencyRecord),
      Runs samplePlugin.serve (fun _ _ _ _ => True) 0
        (samplePlugin.respond (sampleRequest "req-1" "Bearer ada" none)) ApiStore.empty reply t ∧
      reply.statusCode = 201 ∧ samplePlugin.entryOf t "key-1" = some (record, 86400003) ∧
      InTurn samplePlugin.serve (fun _ _ q ω => BeforeExpiry "key-1" 86400003 q ω)
        samplePlugin.respond t u ∧
      Runs samplePlugin.serve (fun _ _ q ω => BeforeExpiry "key-1" 86400003 q ω) 0
        (samplePlugin.respond (sampleRequest "req-3" "Bearer ada" none)) u reply' v ∧
      reply'.statusCode = 409 ∧ ¬ SameResponse samplePlugin reply' reply := by
  refine ⟨sampleAnswered.1, sampleAfterConflict.1, sampleAnswered.2, sampleConflict.2,
    sampleAfterConflict.2, ⟨"POST:/users:", 201, none, some "first", 2⟩,
    runs_get_of_runAllowed _, by decide +kernel, by decide +kernel,
    InTurn.refl.tail (runs_get_of_runAllowed _), runs_get_of_runAllowed _, by decide +kernel,
    fun hsame => ?_⟩
  have hstatus : sampleAfterConflict.1.statusCode ≠ sampleAnswered.1.statusCode := by
    decide +kernel
  exact hstatus hsame.1

/-- A request with the key has been answered below 500, which left a record that expires at
`expiresAt`.  Until then, and while no request meets a record of another fingerprint under the key,
every request with the key and the same fingerprint gets that response. -/
theorem first_response_wins {plugin : Idempotency} {key : String} {first request : Request}
    {i j : ℕ} {s t u v : ApiStore} {reply reply' : Reply} {record : IdempotencyRecord}
    {expiresAt : ℚ} (hfirst : Idempotency.idempotencyKeyOf first = some key)
    (hanswered : Runs plugin.serve (fun _ _ _ _ => True) i (plugin.respond first) s reply t)
    (hbelow : reply.statusCode < 500)
    (hrecorded : plugin.entryOf t key = some (record, expiresAt))
    (hbetween : InTurn plugin.serve (Undisturbed plugin key expiresAt) plugin.respond t u)
    (hrequest : Idempotency.idempotencyKeyOf request = some key)
    (hlast : Runs plugin.serve (Undisturbed plugin key expiresAt) j (plugin.respond request) u
      reply' v) :
    SameResponse plugin reply' reply := by
  have hrecords := records_of_runs hfirst hanswered hbelow hrecorded
  obtain ⟨rfl, -⟩ := replay_of_runs (entryOf_of_inTurn hbetween hrecorded) hrequest hlast
  exact Idempotency.sameResponse_replay hrecords

open Idempotency in
/-- The first request comes again, with nothing in between. -/
def sampleReplayed : Reply × ApiStore :=
  ((samplePlugin.respond (sampleRequest "req-3" "Bearer ada" none)).runAllowed
    samplePlugin.serve (Undisturbed samplePlugin "key-1" 86400003) 0 sampleAnswered.2
    [.time 4]).get (by decide +kernel)

/-- It gets the response that was recorded. -/
theorem first_response_wins_sample :
    SameResponse Idempotency.samplePlugin sampleReplayed.1 sampleAnswered.1 ∧
      sampleReplayed.1.statusCode = 201 := by
  have hkey : ∀ id, Idempotency.idempotencyKeyOf
      (Idempotency.sampleRequest id "Bearer ada" none) = some "key-1" := by
    intro id
    change Idempotency.idempotencyKeyOf (Idempotency.sampleRequest "" "Bearer ada" none) = _
    decide +kernel
  have hrecorded : Idempotency.samplePlugin.entryOf sampleAnswered.2 "key-1" =
      some (⟨"POST:/users:", 201, none, some "first", 2⟩, 86400003) := by decide +kernel
  have hanswered : Runs Idempotency.samplePlugin.serve (fun _ _ _ _ => True) 0
      (Idempotency.samplePlugin.respond (Idempotency.sampleRequest "req-1" "Bearer ada" none))
      ApiStore.empty sampleAnswered.1 sampleAnswered.2 := runs_get_of_runAllowed _
  have hlast : Runs Idempotency.samplePlugin.serve
      (Undisturbed Idempotency.samplePlugin "key-1" 86400003) 0
      (Idempotency.samplePlugin.respond (Idempotency.sampleRequest "req-3" "Bearer ada" none))
      sampleAnswered.2 sampleReplayed.1 sampleReplayed.2 := runs_get_of_runAllowed _
  exact ⟨first_response_wins (hkey "req-1") hanswered (by decide +kernel) hrecorded .refl
    (hkey "req-3") hlast, by decide +kernel⟩

end Verixa.Api
