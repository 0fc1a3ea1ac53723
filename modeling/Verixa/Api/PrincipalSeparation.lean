import Verixa.Api.Idempotency
import Verixa.Concurrency.Journal

/-!
# Stored responses and principals

Neither the key under which a response is stored nor the fingerprint says who has made the request.
A principal that uses the key of another one for the same request therefore gets the response that
was computed for the other (`response_crosses_principals`).  When no two principals use the same
key and fingerprint (`Separate`), everyone gets what was computed for a request of their own, with
the same key and fingerprint (`responses_stay_with_principal`).
-/

namespace Verixa.Api

open Concurrency

/-! ## Who a response was computed for -/

/-- Thread `i` has computed the reply for the request, by the handler or as a conflict. -/
def Computed (plugin : Idempotency) (journal : List (ℕ × ApiDeed)) (i : ℕ) (request : Request)
    (reply : Reply) : Prop :=
  (i, .handled request reply) ∈ journal ∨
    (∃ key found, (i, .looked request key found) ∈ journal) ∧
      reply = plugin.conflictReply request

/-- The reply was computed for a request of the same principal, with the same key and
fingerprint. -/
def ReceivesOwn (plugin : Idempotency) (journal : List (ℕ × ApiDeed)) (request : Request)
    (reply : Reply) : Prop :=
  ∃ i request' reply', Computed plugin journal i request' reply' ∧
    request'.authorization = request.authorization ∧
    Idempotency.idempotencyKeyOf request' = Idempotency.idempotencyKeyOf request ∧
    plugin.fingerprint request' = plugin.fingerprint request ∧ SameResponse plugin reply reply'

/-- No two principals use the same key and fingerprint. -/
def Separate (plugin : Idempotency) (requests : Request → Prop) : Prop :=
  ∀ request request' key, requests request → requests request' →
    Idempotency.idempotencyKeyOf request = some key →
    Idempotency.idempotencyKeyOf request' = some key →
    plugin.fingerprint request = plugin.fingerprint request' →
    request.authorization = request'.authorization

/-- What was computed stays so. -/
theorem Computed.append {plugin : Idempotency} {journal : List (ℕ × ApiDeed)} {i : ℕ}
    {request : Request} {reply : Reply} (h : Computed plugin journal i request reply)
    (added : List (ℕ × ApiDeed)) : Computed plugin (added ++ journal) i request reply := by
  rcases h with hhandled | ⟨⟨key, found, hlooked⟩, hreply⟩
  · exact .inl (List.mem_append_right _ hhandled)
  · exact .inr ⟨⟨key, found, List.mem_append_right _ hlooked⟩, hreply⟩

/-! ## The law of the records -/

/-- The record is that of a response to one of the requests, which carries the key. -/
def RecordedFor (plugin : Idempotency) (requests : Request → Prop) (key : String)
    (record : IdempotencyRecord) (journal : List (ℕ × ApiDeed)) : Prop :=
  ∃ i request reply, requests request ∧ Idempotency.idempotencyKeyOf request = some key ∧
    Computed plugin journal i request reply ∧ Records plugin request reply record

theorem RecordedFor.append {plugin : Idempotency} {requests : Request → Prop} {key : String}
    {record : IdempotencyRecord} {journal : List (ℕ × ApiDeed)}
    (h : RecordedFor plugin requests key record journal) (added : List (ℕ × ApiDeed)) :
    RecordedFor plugin requests key record (added ++ journal) := by
  obtain ⟨i, request, reply, hrequest, hkey, hcomputed, hrecords⟩ := h
  exact ⟨i, request, reply, hrequest, hkey, hcomputed.append added, hrecords⟩

/-- Every record is that of a response to one of the requests. -/
def records (plugin : Idempotency) (requests : Request → Prop) : JournalLaw ApiStore ApiDeed where
  journal s := s.journal
  inv s := ∀ key record expiresAt, plugin.entryOf s key = some (record, expiresAt) →
    RecordedFor plugin requests key record s.journal
  order s t := ∃ added, t.journal = added ++ s.journal
  order_refl := ApiStore.grows_refl
  order_trans := ApiStore.grows_trans

/-- The record that a thread stores is that of a response to its request. -/
def StoresOwn (plugin : Idempotency) (requests : Request → Prop) (_ : ℕ) (s : ApiStore) :
    ApiCall → Prop
  | .set key record _ => RecordedFor plugin requests key record s.journal
  | _ => True

/-- The requests that look a key up are among those given. -/
def AboutRequests (requests : Request → Prop) : ApiCall → Prop
  | .get _ about => requests about
  | _ => True

section Walk

variable {plugin : Idempotency} {requests : Request → Prop} {i : ℕ} {s t : ApiStore}
  {request : Request}

theorem isJournal_records : (records plugin requests).IsJournal plugin.serve :=
  fun _ _ _ _ _ _ hserve => Idempotency.journal_of_serve hserve

/-- The condition under which calls are answered. -/
abbrev OfRequests (requests : Request → Prop) (_ : ℕ) (_ : ApiStore) (q : ApiCall)
    (_ : ApiInput) : Prop :=
  AboutRequests requests q ∧ True

/-- Calls that store what belongs to their request keep the law. -/
theorem keptBy_records : (records plugin requests).KeptBy plugin.serve (OfRequests requests)
    (StoresOwn plugin requests) := by
  intro i s q ω r t hinv hjust _ hserve
  obtain ⟨deeds, hadded⟩ := Idempotency.journal_of_serve hserve
  refine ⟨fun key record expiresAt hentry => ?_, _, hadded⟩
  rw [hadded]
  refine RecordedFor.append ?_ _
  cases q with
  | get key' about =>
    cases ω with
    | reply statusCode contentType payload => cases hserve
    | time now =>
      cases hserve
      rw [Idempotency.entryOf_note] at hentry
      rcases Idempotency.entryOf_get s key' key now with hkept | ⟨-, hgone⟩
      · exact hinv key record expiresAt (hkept ▸ hentry)
      · rw [hgone] at hentry
        cases hentry
  | handle request =>
    cases ω with
    | time now => cases hserve
    | reply statusCode contentType payload =>
      cases hserve
      exact hinv key record expiresAt hentry
  | dateNow =>
    cases ω <;> cases hserve
    exact hinv key record expiresAt hentry
  | set key' record' about =>
    cases ω with
    | reply statusCode contentType payload => cases hserve
    | time now =>
      cases hserve
      rw [Idempotency.entryOf_note, Idempotency.entryOf_set] at hentry
      split at hentry
      · rename_i hkey
        obtain ⟨rfl, -⟩ := Prod.mk.inj (Option.some.inj hentry)
        exact hkey ▸ hjust
      · exact hinv key record expiresAt hentry

/-! ## The walk through a request -/

/-- What a request is answered with. -/
def AnsweredOwn (plugin : Idempotency) (request : Request) (t : ApiStore) (reply : Reply) : Prop :=
  ReceivesOwn plugin t.journal request reply

theorem ReceivesOwn.append {journal : List (ℕ × ApiDeed)} {reply : Reply}
    (h : ReceivesOwn plugin journal request reply) (added : List (ℕ × ApiDeed)) :
    ReceivesOwn plugin (added ++ journal) request reply := by
  obtain ⟨j, request', reply', hcomputed, hsame⟩ := h
  exact ⟨j, request', reply', hcomputed.append added, hsame⟩

/-- What was computed for the request itself is its own. -/
theorem Computed.receivesOwn {journal : List (ℕ × ApiDeed)} {reply : Reply}
    (h : Computed plugin journal i request reply) : ReceivesOwn plugin journal request reply :=
  ⟨i, request, reply, h, rfl, rfl, rfl, rfl, rfl⟩

/-- Returning a reply that is the request's own. -/
theorem safe_ret_of_receivesOwn {reply : Reply}
    (h : ReceivesOwn plugin s.journal request reply) :
    Safe (records plugin requests).contract plugin.serve (OfRequests requests) i
      (AnsweredOwn plugin request) (.ret reply) s := by
  refine (records plugin requests).safe_ret rfl fun t hst _ _ => ?_
  obtain ⟨added, hadded⟩ := hst
  change ReceivesOwn plugin t.journal request reply
  rw [hadded]
  exact h.append added

/-- Storing a reply that was computed for the request, and sending it. -/
theorem safe_storing_of_computed {key : String} {reply : Reply} (hrequest : requests request)
    (hkey : Idempotency.idempotencyKeyOf request = some key)
    (hcomputed : Computed plugin s.journal i request reply) :
    Safe (records plugin requests).contract plugin.serve (OfRequests requests) i
      (AnsweredOwn plugin request)
      (plugin.storing request key (plugin.fingerprint request) reply) s := by
  let J := records plugin requests
  refine J.safe_call isJournal_records keptBy_records rfl (fun _ _ _ _ => trivial) ?_
  intro t ω createdAt u hst _ _ _ hserve _ htu
  refine J.safe_call isJournal_records keptBy_records rfl ?_ ?_
  · intro v huv _ _
    obtain ⟨added, hadded⟩ := J.order_trans _ _ _ (J.order_trans _ _ _ hst htu) huv
    change RecordedFor plugin requests key _ v.journal
    rw [hadded]
    exact ⟨i, request, reply, hrequest, hkey, hcomputed.append added,
      records_recordOf plugin request reply createdAt⟩
  · intro v ω' r w huv _ _ _ _ _ hvw
    refine safe_ret_of_receivesOwn ?_
    obtain ⟨added, hadded⟩ := J.order_trans _ _ _
      (J.order_trans _ _ _ (J.order_trans _ _ _ hst htu) huv) hvw
    rw [hadded]
    exact (hcomputed.append added).receivesOwn

/-- Handling a request. -/
theorem safe_handle_of_computed {f : Reply → ApiProgram Reply}
    (h : ∀ t reply, Computed plugin t.journal i request reply →
      Safe (records plugin requests).contract plugin.serve (OfRequests requests) i
        (AnsweredOwn plugin request) (f reply) t) :
    Safe (records plugin requests).contract plugin.serve (OfRequests requests) i
      (AnsweredOwn plugin request) (.call (.handle request) f) s := by
  refine (records plugin requests).safe_call isJournal_records keptBy_records rfl
    (fun _ _ _ _ => trivial) ?_
  intro t ω reply u _ _ _ _ hserve _ _
  cases ω <;> cases hserve
  exact h _ _ (.inl List.mem_cons_self)

/-- Every request keeps the law, and gets what is its own. -/
theorem safe_respond (hseparate : Separate plugin requests) :
    Safe (records plugin requests).contract plugin.serve (OfRequests requests) i
      (AnsweredOwn plugin request) (plugin.respond request) s := by
  let J := records plugin requests
  cases hkey : Idempotency.idempotencyKeyOf request with
  | none =>
    rw [Idempotency.respond_of_unkeyed hkey]
    exact safe_handle_of_computed fun t reply hcomputed =>
      safe_ret_of_receivesOwn hcomputed.receivesOwn
  | some key =>
    rw [Idempotency.respond_of_keyed hkey]
    refine J.safe_call isJournal_records keptBy_records rfl (fun _ _ _ _ => trivial) ?_
    intro t ω found u _ hinv _ hallowed hserve _ _
    have hrequest : requests request := hallowed.1
    cases ω with
    | reply statusCode contentType payload => cases hserve
    | time now =>
      cases hserve
      cases hfound : (plugin.get t key now).1 with
      | none =>
        refine safe_handle_of_computed fun v reply hcomputed => ?_
        rw [Idempotency.sending]
        split
        · exact safe_ret_of_receivesOwn hcomputed.receivesOwn
        split
        · exact safe_ret_of_receivesOwn hcomputed.receivesOwn
        exact safe_storing_of_computed hrequest hkey hcomputed
      | some record =>
        rw [Idempotency.afterLookUp]
        split
        · refine safe_storing_of_computed hrequest hkey (.inr ⟨⟨key, some record, ?_⟩, rfl⟩)
          exact List.mem_cons_self
        · rename_i hsame
          -- the record was computed for a request with the same key and fingerprint
          obtain ⟨expiresAt, hentry⟩ := Idempotency.entryOf_of_get hfound
          obtain ⟨j, request', reply', hrequest', hkey', hcomputed, hrecords⟩ :=
            hinv key record expiresAt hentry
          have hfingerprint : plugin.fingerprint request' = plugin.fingerprint request :=
            hrecords.requestHash.symm.trans (not_not.mp hsame)
          have howner := hseparate request' request key hrequest' hrequest hkey' hkey hfingerprint
          have hown : ReceivesOwn plugin t.journal request (Idempotency.replay record) :=
            ⟨j, request', reply', hcomputed, howner, hkey'.trans hkey.symm, hfingerprint,
              Idempotency.sameResponse_replay hrecords⟩
          refine safe_ret_of_receivesOwn ?_
          rw [ApiStore.journal_note, Idempotency.journal_get]
          exact hown.append [_]

end Walk

/-! ## Runs -/

open Idempotency in
/-- A principal makes the request of another one, with the same key. -/
def sampleCrossed : ApiPool :=
  (exec samplePlugin.step (Pool.initial ApiStore.empty)
    [.start 0 (sampleRequest "req-1" "Bearer ada" none), .answer 0 (.time 1),
      .answer 0 (.reply 201 none (.plain (.string "the secret of ada"))), .answer 0 (.time 2),
      .answer 0 (.time 3), .start 1 (sampleRequest "req-2" "Bearer eve" none),
      .answer 1 (.time 4)]).get (by decide +kernel)

/-- What the other principal is answered with. -/
def sampleCrossedAnswer : (_ : Request) × Reply :=
  (sampleCrossed.returned 1).get (by decide +kernel)

/-- The principals for whose requests the handler has run. -/
def handledPrincipals (journal : List (ℕ × ApiDeed)) : List HeaderValue :=
  journal.filterMap fun d =>
    match d.2 with
    | .handled request _ => some request.authorization
    | _ => none

/-- A principal can be answered with what the handler has computed for another one, and for no one
else. -/
theorem response_crosses_principals :
    ∃ P, Run Idempotency.samplePlugin.step (Pool.initial ApiStore.empty) P ∧
      handledPrincipals P.store.journal = [.text "Bearer ada"] ∧
      ∃ answer, P.returned 1 = some answer ∧ answer.1.authorization = .text "Bearer eve" ∧
        Idempotency.samplePlugin.serializedPayload answer.2.payload = some "the secret of ada" ∧
        ¬ ReceivesOwn Idempotency.samplePlugin P.store.journal answer.1 answer.2 := by
  have hhandled : handledPrincipals sampleCrossed.store.journal = [.text "Bearer ada"] := by
    decide +kernel
  have hanswered : sampleCrossed.returned 1 = some sampleCrossedAnswer :=
    (Option.some_get _).symm
  have hprincipal : sampleCrossedAnswer.1.authorization = .text "Bearer eve" := by
    decide +kernel
  have hstatus : sampleCrossedAnswer.2.statusCode = 201 := by decide +kernel
  refine ⟨sampleCrossed, runWhile_get _, hhandled, sampleCrossedAnswer, hanswered, hprincipal,
    by decide +kernel, ?_⟩
  rintro ⟨i, request, reply, hcomputed, howner, -, -, hsame⟩
  rcases hcomputed with hran | ⟨-, hconflict⟩
  · have hmem : request.authorization ∈ handledPrincipals sampleCrossed.store.journal :=
      List.mem_filterMap.mpr ⟨_, hran, rfl⟩
    rw [hhandled, howner, hprincipal] at hmem
    revert hmem
    decide
  · have hsame_status := hsame.1
    rw [hstatus, hconflict] at hsame_status
    cases hsame_status

/-- When no two principals use the same key and fingerprint, every answer was computed for a request
of the principal that is answered, with the same key and fingerprint. -/
theorem responses_stay_with_principal {plugin : Idempotency} {requests : Request → Prop}
    (hseparate : Separate plugin requests) {P : Idempotency.ApiPool}
    (hrun : RunWhile plugin.step (fun _ e => Starts requests e) (Pool.initial ApiStore.empty) P)
    {i : ℕ} {request : Request} {reply : Reply} (hanswer : P.returned i = some ⟨request, reply⟩) :
    ReceivesOwn plugin P.store.journal request reply := by
  let J := records plugin requests
  have hinitial : J.inv ApiStore.empty := by
    intro key record expiresAt hentry
    have hnone : plugin.entryOf ApiStore.empty key = none := by
      unfold Idempotency.entryOf
      split <;> rfl
    rw [hnone] at hentry
    cases hentry
  have hstarts : RunWhile plugin.step
      (fun P e => Starts requests e ∧ P.Allows (fun _ _ _ _ => True) e)
      (Pool.initial ApiStore.empty) P :=
    hrun.mono fun P e h => ⟨h, P.allows_of_forall (fun _ _ _ _ => trivial) e⟩
  have hcalls : ∀ request, requests request →
      (plugin.respond request).Calls (AboutRequests requests) := fun request hrequest =>
    Idempotency.calls_respond (fun _ _ => hrequest) trivial trivial fun _ _ => trivial
  have habout := allows_of_starts hcalls hstarts
  have hsound : Sound J.contract plugin.serve (OfRequests requests)
      (fun i t => J.deedsOf i t = []) (fun _ request _ => AnsweredOwn plugin request) P :=
    J.sound_of_run (fun _ _ _ _ _ => safe_respond hseparate) hinitial rfl habout
  obtain ⟨begun, hthread⟩ := Pool.threads_of_returned hanswer
  exact hsound.done_of_ret hthread

/-- Only one principal uses keys. -/
def sampleKeyed (request : Request) : Prop :=
  Idempotency.idempotencyKeyOf request = none ∨ request.authorization = .text "Bearer ada"

instance : DecidablePred sampleKeyed := fun _ => inferInstanceAs (Decidable (_ ∨ _))

theorem separate_sampleKeyed (plugin : Idempotency) : Separate plugin sampleKeyed := by
  intro request request' key hrequest hrequest' hkey hkey' _
  rcases hrequest with hnone | howner
  · rw [hnone] at hkey
    cases hkey
  rcases hrequest' with hnone' | howner'
  · rw [hnone'] at hkey'
    cases hkey'
  · exact howner.trans howner'.symm

open Idempotency in
/-- A request comes again, and another principal makes it without a key. -/
def sampleSeparated : ApiPool :=
  (execWhile samplePlugin.step (fun _ e => Starts sampleKeyed e) (Pool.initial ApiStore.empty)
    [.start 0 (sampleRequest "req-1" "Bearer ada" none), .answer 0 (.time 1),
      .answer 0 (.reply 201 none (.plain (.string "the secret of ada"))), .answer 0 (.time 2),
      .answer 0 (.time 3),
      .start 1 (sampleRequest "req-2" "Bearer ada" none), .answer 1 (.time 4),
      .start 2 { sampleRequest "req-3" "Bearer eve" none with idempotencyKeyHeader := .absent },
      .answer 2 (.reply 403 none .undefined)]).get (by decide +kernel)

/-- Everyone gets what is their own. -/
theorem responses_stay_with_principal_sample :
    (∀ answer, sampleSeparated.returned 1 = some answer →
      ReceivesOwn Idempotency.samplePlugin sampleSeparated.store.journal answer.1 answer.2) ∧
    (sampleSeparated.returned 1).map (fun answer => answer.2.replayed) = some true ∧
    (sampleSeparated.returned 2).map (fun answer => answer.2.statusCode) = some 403 :=
  ⟨fun _ hanswer => responses_stay_with_principal (separate_sampleKeyed _) (runWhile_get _) hanswer,
    by decide +kernel, by decide +kernel⟩

end Verixa.Api
