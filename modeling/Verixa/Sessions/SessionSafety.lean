import Verixa.Sessions.SessionWork

/-!
# The use cases keep to their contract

The walk through `IssueSession`, `RefreshAccessToken`, `Logout` and `LogoutEverywhere`, done once
for every law of the store.  Besides making justified calls only, a use case that returns has put
on the revocation list every session it has stored as revoked; and a refresh that returns tokens
has redeemed the presented token and has found its session unrevoked after it was started.
-/

namespace Verixa

open Concurrency

variable {D : SessionDeployment} {L : SessionLaw} {i : ℕ} {begun s t u : SessionStore}
  {ids : List String} {allowed : ℕ → SessionStore → SessionRequest → SessionInput → Prop}

/-! ## How far a use case has got -/

/-- What thread `i` has stored as revoked is on the list, except possibly for some sessions. -/
def SettledBut (i : ℕ) (s : SessionStore) (ids : List String) : Prop :=
  ∀ id, (i, SessionDeed.revoked id) ∈ s.journal → s.Listed id ∨ id ∈ ids

/-- Thread `i`, started in the store `begun`, has got to the store `s` with `ids` still to be put
on the list. -/
structure Progress (L : SessionLaw) (i : ℕ) (begun s : SessionStore) (ids : List String) :
    Prop where
  rel : L.rel begun s
  settled : SettledBut i s ids

/-- Progress is kept by what neither stores a session as revoked nor takes one off the list. -/
theorem Progress.mono (h : Progress L i begun s ids) (hrel : L.rel s t)
    (hrevoked : ∀ id, (i, SessionDeed.revoked id) ∈ t.journal →
      (i, SessionDeed.revoked id) ∈ s.journal)
    (hlisted : ∀ id, s.Listed id → t.Listed id) : Progress L i begun t ids where
  rel := L.rel_trans _ _ _ h.rel hrel
  settled id hid := (h.settled id (hrevoked id hid)).imp_left (hlisted id)

theorem Progress.of_rely (h : Progress L i begun s ids) (hst : L.contract.rely i s t) :
    Progress L i begun t ids :=
  h.mono hst.2 (fun _ hid => hst.1.own _ hid) hst.1.listed

/-- Storing a session as revoked adds it to what is still to be put on the list. -/
theorem Progress.save (h : Progress L i begun s ids) {session : Session}
    (hrel : L.rel s (s.save i session)) :
    Progress L i begun (s.save i session) (session.id :: ids) where
  rel := L.rel_trans _ _ _ h.rel hrel
  settled id hid := by
    rcases (SessionStore.mem_journal_save s i).mp hid with ⟨-, hid⟩ | hid
    · cases hid
      exact .inr (List.mem_cons_self)
    · refine (h.settled id hid).imp (fun hl => ?_) (List.mem_cons_of_mem _)
      simpa [SessionStore.Listed] using hl

/-- Putting it there takes it off again. -/
theorem Progress.deny {id : String} (h : Progress L i begun s (id :: ids)) {expiry : ℤ}
    (hrel : L.rel s (s.deny i id expiry)) : Progress L i begun (s.deny i id expiry) ids where
  rel := L.rel_trans _ _ _ h.rel hrel
  settled other hother := by
    simp only [SessionStore.journal_deny, List.mem_cons, Prod.mk.injEq, reduceCtorEq, and_false,
      false_or] at hother
    rcases h.settled other hother with hl | hmem
    · exact .inl (SessionStore.listed_deny.mpr (.inr hl))
    · rcases List.mem_cons.mp hmem with rfl | hmem
      · exact .inl (SessionStore.listed_deny.mpr (.inl rfl))
      · exact .inr hmem

/-! ## Rules for calls -/

/-- The call saves nothing. -/
def SessionRequest.Plain : SessionRequest → Prop
  | .save _ | .saveRefreshToken _ => False
  | _ => True

/-- A call that saves nothing carries over what its own thread knows, and stores no session as
revoked under the thread's name. -/
theorem carries_of_plain {q : SessionRequest} {ω : SessionInput} {r : q.Answer} (hplain : q.Plain)
    (h : D.serve i s q ω = some (r, u)) :
    Carries i s u ∧ ∀ id, (i, SessionDeed.revoked id) ∈ u.journal →
      (i, SessionDeed.revoked id) ∈ s.journal := by
  have hnote : ∀ deed, (∀ id, deed ≠ .revoked id) → Carries i s (s.note i deed) ∧
      ∀ id, (i, SessionDeed.revoked id) ∈ (s.note i deed).journal →
        (i, SessionDeed.revoked id) ∈ s.journal := by
    refine fun deed hdeed => ⟨carries_note i deed, fun id hid => ?_⟩
    rcases List.mem_cons.mp hid with hid | hid
    · cases hid
      exact absurd rfl (hdeed id)
    · exact hid
  cases q with
  | now =>
    obtain rfl := SessionStore.serve_now h
    exact hnote _ fun _ => by simp
  | createId =>
    obtain ⟨-, rfl⟩ := SessionStore.serve_createId h
    exact hnote _ fun _ => by simp
  | randomToken =>
    obtain ⟨-, rfl⟩ := SessionStore.serve_randomToken h
    exact hnote _ fun _ => by simp
  | findRefreshTokenByHash tokenHash =>
    obtain ⟨-, rfl⟩ := SessionStore.serve_findRefreshTokenByHash h
    exact ⟨Carries.refl i u, fun _ hid => hid⟩
  | saveRefreshToken refreshToken => exact absurd hplain id
  | findById id =>
    obtain ⟨-, rfl⟩ := SessionStore.serve_findById h
    exact hnote _ fun _ => by simp
  | save session => exact absurd hplain id
  | findActiveByUserId userId =>
    obtain ⟨-, rfl⟩ := SessionStore.serve_findActiveByUserId h
    exact ⟨Carries.refl i u, fun _ hid => hid⟩
  | revokeAllForUser userId now =>
    obtain rfl := SessionStore.serve_revokeAllForUser h
    exact ⟨carries_revokeAllForUser i userId now, fun _ hid => hid⟩
  | revoke sessionId expiry =>
    obtain rfl := SessionStore.serve_revoke h
    exact ⟨carries_deny i sessionId expiry, fun id hid => by simpa using hid⟩
  | sign payload ttlSeconds =>
    obtain ⟨t, -, rfl⟩ := SessionStore.serve_sign h
    exact hnote _ fun _ => by simp
  | record action actorId metadata =>
    obtain rfl := SessionStore.serve_record h
    exact ⟨carries_record i _, fun _ hid => hid⟩
  | settleOrder sessions =>
    obtain ⟨-, rfl⟩ := SessionStore.serve_settleOrder h
    exact ⟨Carries.refl i u, fun _ hid => hid⟩
  | stall => exact absurd h SessionStore.serve_stall

section Rules

variable {γ : Type} {post : SessionStore → γ → Prop}

/-- A justified call keeps to the contract. -/
theorem safe_call (hkept : KeptBy D L allowed) {q : SessionRequest}
    {f : q.Answer → SessionProgram γ}
    (hjust : ∀ t, Spares i s t → Justified D i t q)
    (h : ∀ t ω r u, L.contract.rely i s t → t.WellFormed → D.serve i t q ω = some (r, u) →
      L.rel t u → Safe L.contract D.serve allowed i post (f r) u) :
    Safe L.contract D.serve allowed i post (.call q f) s := by
  intro t ω r u ht hinv hallowed hserve
  have hjust_t := hjust t ht.1
  obtain ⟨hinv_u, hrel⟩ := hkept i t q ω r u hinv.1 hinv.2 hjust_t hallowed hserve
  obtain ⟨hwf, hspares⟩ := wellFormed_and_spares_of_serve hinv.1 hjust_t hserve
  exact ⟨⟨hwf, hinv_u⟩, fun j hj => ⟨hspares j hj, hrel⟩, h t ω r u ht hinv.1 hserve hrel⟩

/-- A call that saves nothing: what was known is still known, and progress is kept. -/
theorem safe_plain (hkept : KeptBy D L allowed) (q : SessionRequest) (hplain : q.Plain)
    (hjust : ∀ t, Justified D i t q) (hp : Progress L i begun s ids)
    {f : q.Answer → SessionProgram γ}
    (h : ∀ t ω r u, Carries i s t → Carries i s u → Progress L i begun t ids →
      Progress L i begun u ids → L.rel t u → D.serve i t q ω = some (r, u) →
      Safe L.contract D.serve allowed i post (f r) u) :
    Safe L.contract D.serve allowed i post (.call q f) s := by
  refine safe_call hkept (fun t _ => hjust t) fun t ω r u ht _ hserve hrel => ?_
  obtain ⟨hcarries, hrevoked⟩ := carries_of_plain hplain hserve
  have hp_t := hp.of_rely ht
  exact h t ω r u ht.1.toCarries (ht.1.toCarries.trans hcarries) hp_t
    (hp_t.mono hrel hrevoked hcarries.listed) hrel hserve

/-- Saving a session that is revoked or was found or is new. -/
theorem safe_save (hkept : KeptBy D L allowed) {session : Session}
    (hjust : ∀ t, Spares i s t → Justified D i t (.save session)) (hp : Progress L i begun s ids)
    {f : Unit → SessionProgram γ}
    (h : ∀ t, L.contract.rely i s t → Progress L i begun t ids → L.rel t (t.save i session) →
      Safe L.contract D.serve allowed i post (f ()) (t.save i session)) :
    Safe L.contract D.serve allowed i post (SessionCalls.save session >>= f) s := by
  refine safe_call hkept hjust fun t ω r u ht _ hserve hrel => ?_
  obtain rfl := SessionStore.serve_save hserve
  exact h t ht (hp.of_rely ht) hrel

/-- Saving a refresh token that is used up or new; one that is used up takes the place of the one
that was read. -/
theorem safe_saveRefreshToken (hkept : KeptBy D L allowed) {refreshToken : RefreshToken}
    (hjust : ∀ t, Spares i s t → Justified D i t (.saveRefreshToken refreshToken))
    (hp : Progress L i begun s ids) {f : Unit → SessionProgram γ}
    (h : ∀ t, Carries i s t →
      (refreshToken.isUsed = true → Carries i t (t.saveRefreshToken i refreshToken)) →
      Progress L i begun (t.saveRefreshToken i refreshToken) ids →
      Safe L.contract D.serve allowed i post (f ()) (t.saveRefreshToken i refreshToken)) :
    Safe L.contract D.serve allowed i post
      (SessionCalls.saveRefreshToken refreshToken >>= f) s := by
  refine safe_call hkept hjust fun t ω r u ht hwf hserve hrel => ?_
  obtain rfl := SessionStore.serve_saveRefreshToken hserve
  refine h t ht.1.toCarries
    (fun hused => carries_saveRefreshToken hwf (hjust t ht.1) (.inr hused))
    ((hp.of_rely ht).mono hrel (fun id hid => ?_) fun id hl => ?_)
  · rcases (SessionStore.mem_journal_saveRefreshToken t i).mp hid with ⟨-, hid⟩ | hid
    · cases hid
    · exact hid
  · simpa [SessionStore.Listed] using hl

/-- Putting a session on the list. -/
theorem safe_revoke (hkept : KeptBy D L allowed) {id : String} {expiry : ℤ}
    (hp : Progress L i begun s (id :: ids)) {f : Unit → SessionProgram γ}
    (h : ∀ t, Carries i s t → Progress L i begun t ids →
      Safe L.contract D.serve allowed i post (f ()) t) :
    Safe L.contract D.serve allowed i post (SessionCalls.revoke id expiry >>= f) s := by
  refine safe_call hkept (fun _ _ => trivial) fun t ω r u ht _ hserve hrel => ?_
  obtain rfl := SessionStore.serve_revoke hserve
  exact h _ (ht.1.toCarries.trans (carries_deny i id expiry)) ((hp.of_rely ht).deny hrel)

/-- Signing a token. -/
theorem safe_sign (hkept : KeptBy D L allowed) {payload : AccessTokenPayload}
    (hp : Progress L i begun s ids) {f : String → SessionProgram γ}
    (h : ∀ t answer, Carries i s t → Progress L i begun t ids →
      Safe L.contract D.serve allowed i post (f answer) t) :
    Safe L.contract D.serve allowed i post
      (SessionCalls.sign payload D.expiryPolicy.accessTokenTtlSeconds >>= f) s :=
  safe_plain hkept (.sign payload _) trivial (fun _ => rfl) hp fun _ _ r u _ hcarries _ hp_u _ _ =>
    h u r hcarries hp_u

/-- Reading the clock. -/
theorem safe_now (hkept : KeptBy D L allowed) (hp : Progress L i begun s ids)
    {f : ℤ → SessionProgram γ}
    (h : ∀ t time, Carries i s t → Progress L i begun t ids →
      Safe L.contract D.serve allowed i post (f time) t) :
    Safe L.contract D.serve allowed i post (SessionCalls.now >>= f) s :=
  safe_plain hkept .now trivial (fun _ => trivial) hp fun _ _ r u _ hcarries _ hp_u _ _ =>
    h u r hcarries hp_u

/-- Drawing an id. -/
theorem safe_createId (hkept : KeptBy D L allowed) (hp : Progress L i begun s ids)
    {f : String → SessionProgram γ}
    (h : ∀ t id, Carries i s t → Progress L i begun t ids → (i, .drewId id) ∈ t.journal →
      t.sessionsById.get? id = none → Safe L.contract D.serve allowed i post (f id) t) :
    Safe L.contract D.serve allowed i post (SessionCalls.createId >>= f) s := by
  refine safe_plain hkept .createId trivial (fun _ => trivial) hp
    fun t _ id u _ hcarries _ hp_u _ hserve => ?_
  obtain ⟨hfresh, rfl⟩ := SessionStore.serve_createId hserve
  exact h _ id hcarries hp_u List.mem_cons_self hfresh.1

/-- Drawing a token. -/
theorem safe_randomToken (hkept : KeptBy D L allowed) (hp : Progress L i begun s ids)
    {f : String → SessionProgram γ}
    (h : ∀ t token, Carries i s t → Progress L i begun t ids →
      (i, .drewToken (RefreshToken.hashToken D.sha256 token)) ∈ t.journal →
      t.refreshTokensByHash.get? (RefreshToken.hashToken D.sha256 token) = none →
      Safe L.contract D.serve allowed i post (f token) t) :
    Safe L.contract D.serve allowed i post (SessionCalls.randomToken >>= f) s := by
  refine safe_plain hkept .randomToken trivial (fun _ => trivial) hp
    fun t _ token u _ hcarries _ hp_u _ hserve => ?_
  obtain ⟨hfresh, rfl⟩ := SessionStore.serve_randomToken hserve
  exact h _ token hcarries hp_u List.mem_cons_self hfresh.1

/-- Looking up the sessions of a user. -/
theorem safe_findActiveByUserId (hkept : KeptBy D L allowed) {userId : String}
    (hp : Progress L i begun s ids) {f : List Session → SessionProgram γ}
    (h : ∀ t active, Carries i s t → Progress L i begun t ids →
      (∀ session ∈ active, t.sessionsById.get? session.id ≠ none) →
      Safe L.contract D.serve allowed i post (f active) t) :
    Safe L.contract D.serve allowed i post (SessionCalls.findActiveByUserId userId >>= f) s := by
  refine safe_plain hkept (.findActiveByUserId userId) trivial (fun _ => trivial) hp
    fun t _ active u _ hcarries _ hp_u _ hserve => ?_
  obtain ⟨rfl, rfl⟩ := SessionStore.serve_findActiveByUserId hserve
  refine h _ _ hcarries hp_u fun session hsession => ?_
  rw [SessionStore.get?_of_mem_findActiveByUserId hsession]
  simp

/-- Looking up a session. -/
theorem safe_findById (hkept : KeptBy D L allowed) {id : String} (hp : Progress L i begun s ids)
    {f : Option Session → SessionProgram γ}
    (hnone : ∀ t, Progress L i begun t ids → Safe L.contract D.serve allowed i post (f none) t)
    (hsome : ∀ t session, Carries i s t → Progress L i begun t ids → session.id = id →
      t.sessionsById.get? id ≠ none → (i, .foundSession id) ∈ t.journal →
      (session.isRevoked = false → ∃ v, L.rel begun v ∧ ¬ v.Revoked id) →
      Safe L.contract D.serve allowed i post (f (some session)) t) :
    Safe L.contract D.serve allowed i post (SessionCalls.findById id >>= f) s := by
  refine safe_plain hkept (.findById id) trivial (fun _ => trivial) hp
    fun t _ answer u _ hcarries hp_t hp_u _ hserve => ?_
  obtain ⟨rfl, rfl⟩ := SessionStore.serve_findById hserve
  cases hfound : t.sessionsById.get? id with
  | none => exact hnone _ hp_u
  | some session =>
    refine hsome _ session hcarries hp_u (KeyedMap.key_of_get? hfound) (by simp [hfound])
      List.mem_cons_self fun hunrevoked => ⟨t, hp_t.rel, ?_⟩
    rintro ⟨stored, hstored, hrevoked⟩
    obtain rfl : session = stored := Option.some.inj (hfound.symm.trans hstored)
    rw [hunrevoked] at hrevoked
    cases hrevoked

/-- Looking up a refresh token. -/
theorem safe_findRefreshTokenByHash (hkept : KeptBy D L allowed) {tokenHash : String}
    (hp : Progress L i begun s ids) {f : Option RefreshToken → SessionProgram γ}
    (hnone : ∀ t, Progress L i begun t ids → Safe L.contract D.serve allowed i post (f none) t)
    (hsome : ∀ t presented, Progress L i begun t ids → presented.tokenHash = tokenHash →
      t.refreshTokensByHash.get? tokenHash = some presented →
      Safe L.contract D.serve allowed i post (f (some presented)) t) :
    Safe L.contract D.serve allowed i post (SessionCalls.findRefreshTokenByHash tokenHash >>= f)
      s := by
  refine safe_plain hkept (.findRefreshTokenByHash tokenHash) trivial (fun _ => trivial) hp
    fun t _ answer u _ _ _ hp_u _ hserve => ?_
  obtain ⟨rfl, rfl⟩ := SessionStore.serve_findRefreshTokenByHash hserve
  cases hfound : u.refreshTokensByHash.get? tokenHash with
  | none => exact hnone _ hp_u
  | some presented => exact hsome _ presented hp_u (KeyedMap.key_of_get? hfound) hfound

/-- A call that never returns. -/
theorem safe_stall (hkept : KeptBy D L allowed) {f : Unit → SessionProgram γ} :
    Safe L.contract D.serve allowed i post (.call .stall f) s :=
  safe_call hkept (fun _ _ => trivial) fun _ _ _ _ _ _ hserve _ =>
    absurd hserve SessionStore.serve_stall

end Rules

/-- Saving a session that is not revoked leaves progress as it was. -/
theorem Progress.save_of_not_revoked (h : Progress L i begun s ids) {session : Session}
    (hrel : L.rel s (s.save i session)) (hsession : session.isRevoked = false) :
    Progress L i begun (s.save i session) ids := by
  refine h.mono hrel (fun id hid => ?_) fun id hl => by simpa [SessionStore.Listed] using hl
  rcases (SessionStore.mem_journal_save s i).mp hid with ⟨hrevoked, -⟩ | hid
  · rw [hsession] at hrevoked
    cases hrevoked
  · exact hid

/-! ## The walk through the use cases -/

/-- Nothing is left to be put on the list. -/
def Settled (i : ℕ) (t : SessionStore) : Prop := SettledBut i t []

/-- Thread `i` has redeemed the token with the hash, which belongs to the session. -/
structure Redeemed (i : ℕ) (s : SessionStore) (tokenHash sessionId : String) : Prop where
  deed : (i, .redeemed tokenHash) ∈ s.journal
  stored : ∃ stored, s.refreshTokensByHash.get? tokenHash = some stored ∧
    stored.sessionId = sessionId

theorem Redeemed.of_carries {tokenHash sessionId : String} (h : Redeemed i s tokenHash sessionId)
    (hst : Carries i s t) : Redeemed i t tokenHash sessionId := by
  obtain ⟨hdeed, stored, hstored, hsession⟩ := h
  obtain ⟨stored', hstored', hsame⟩ := hst.token tokenHash stored hstored
  exact ⟨hst.deeds _ hdeed, stored', hstored', hsame.trans hsession⟩

/-- Marking a token used redeems it. -/
theorem redeemed_saveRefreshToken_markUsed (presented : RefreshToken) (now : ℤ) :
    Redeemed i (s.saveRefreshToken i (presented.markUsed now)) presented.tokenHash
      presented.sessionId where
  deed := (SessionStore.mem_journal_saveRefreshToken s i).mpr (.inl ⟨rfl, rfl⟩)
  stored := by
    refine ⟨presented.markUsed now, ?_, rfl⟩
    rw [SessionStore.refreshTokensByHash_saveRefreshToken]
    exact KeyedMap.get?_put_self _ _

/-- It stays redeemed when another token is stored. -/
theorem Redeemed.saveRefreshToken {tokenHash sessionId : String}
    (h : Redeemed i s tokenHash sessionId) {r : RefreshToken} (hne : r.tokenHash ≠ tokenHash) :
    Redeemed i (s.saveRefreshToken i r) tokenHash sessionId where
  deed := (SessionStore.mem_journal_saveRefreshToken s i).mpr (.inr h.deed)
  stored := by
    rw [SessionStore.refreshTokensByHash_saveRefreshToken, KeyedMap.get?_put_of_ne _ hne]
    exact h.stored

theorem Redeemed.save {tokenHash sessionId : String} (h : Redeemed i s tokenHash sessionId)
    (session : Session) : Redeemed i (s.save i session) tokenHash sessionId where
  deed := (SessionStore.mem_journal_save s i).mpr (.inr h.deed)
  stored := by
    rw [SessionStore.refreshTokensByHash_save]
    exact h.stored

variable (D L) in
/-- Thread `i`, started in `begun`, has redeemed the presented token, and the session of the token
was not revoked at some moment since then. -/
def Refreshed (i : ℕ) (begun t : SessionStore) (command : RefreshAccessTokenCommand) : Prop :=
  ∃ sessionId,
    Redeemed i t (RefreshToken.hashToken D.sha256 command.refreshToken) sessionId ∧
      ∃ v, L.rel begun v ∧ ¬ v.Revoked sessionId

variable (D L) in
/-- What a use case that has returned has done. -/
def SessionCommand.Done (i : ℕ) (begun t : SessionStore) : (c : SessionCommand) → c.Result → Prop
  | .refreshAccessToken command, result =>
    Settled i t ∧ ∀ pair, result = .ok pair → Refreshed D L i begun t command
  | _, _ => Settled i t

/-- Returning with nothing left to be done. -/
theorem safe_settled {γ : Type} {a : γ} (hp : Progress L i begun s []) :
    Safe L.contract D.serve allowed i (fun t _ => Settled i t) (pure a : SessionProgram γ) s :=
  fun _ ht _ => (hp.of_rely ht).settled

/-- Each eviction ends with the evicted session on the list. -/
theorem safe_evictOldestUntilUnderLimit (hkept : KeptBy D L allowed) (maxConcurrentSessions : ℤ)
    (userId : String) (now : ℤ) (passes : ℕ) (hp : Progress L i begun s []) :
    Safe L.contract D.serve allowed i (fun t _ => Progress L i begun t [])
      (IssueSession.evictOldestUntilUnderLimit D.expiryPolicy maxConcurrentSessions userId now
        passes) s := by
  induction passes generalizing s with
  | zero => exact safe_stall hkept
  | succ passes ih =>
    refine safe_findActiveByUserId hkept hp fun t active _ hp_t hstored => ?_
    split
    · exact fun u hu _ => hp_t.of_rely hu
    · cases active with
      | nil => exact safe_stall hkept
      | cons oldest rest =>
        have holdest := hstored oldest List.mem_cons_self
        refine safe_save hkept (fun u hu => .inl ⟨?_, .inl ?_⟩) hp_t fun u _ hp_u hrel => ?_
        · simpa using hu.session _ holdest
        · exact oldest.isRevoked_revoke now
        have hp_saved := hp_u.save hrel
        rw [Session.revoke_id] at hp_saved
        refine safe_revoke hkept hp_saved fun v _ hp_v => ?_
        exact safe_plain hkept (.record _ _ _) trivial (fun _ => trivial) hp_v
          fun _ _ _ w _ _ _ hp_w _ _ => ih hp_w

/-- Opening a session stores it under the id and the token under the hash that were drawn. -/
theorem safe_openSession (hkept : KeptBy D L allowed) (command : IssueSessionCommand) (now : ℤ)
    (hp : Progress L i begun s []) :
    Safe L.contract D.serve allowed i (fun t _ => Settled i t)
      (IssueSession.openSession D.sha256 D.expiryPolicy command now) s := by
  refine safe_createId hkept hp fun t sessionId _ hp_t hdrewId hnoSession => ?_
  refine safe_randomToken hkept hp_t fun u token htu hp_u hdrewToken hnoToken => ?_
  refine safe_createId hkept hp_u fun v tokenId huv hp_v _ _ => ?_
  have htv := htu.trans huv
  have hdrewId_v := htv.deeds _ hdrewId
  have hnoSession_v := htv.ownId _ hdrewId hnoSession
  have hdrewToken_v := huv.deeds _ hdrewToken
  have hnoToken_v := huv.ownToken _ hdrewToken hnoToken
  refine safe_save hkept
    (fun w hw => .inr ⟨hw.ownId _ hdrewId_v hnoSession_v, hw.deeds _ hdrewId_v⟩) hp_v
    fun w hw hp_w hrel => ?_
  have hp_saved := hp_w.save_of_not_revoked hrel rfl
  have hdrewToken_w := hw.1.deeds _ hdrewToken_v
  have hnoToken_w := hw.1.ownToken _ hdrewToken_v hnoToken_v
  refine safe_saveRefreshToken hkept (fun x hx => .inr ⟨rfl, ?_, ?_⟩) hp_saved
    fun x _ _ hp_x => ?_
  · refine hx.ownToken _ ((SessionStore.mem_journal_save _ _).mpr (.inr hdrewToken_w)) ?_
    rw [SessionStore.refreshTokensByHash_save]
    exact hnoToken_w
  · exact hx.deeds _ ((SessionStore.mem_journal_save _ _).mpr (.inr hdrewToken_w))
  · exact safe_sign hkept hp_x fun y _ _ hp_y => safe_settled hp_y

theorem safe_issueSession (hkept : KeptBy D L allowed) (passes : ℕ) (command : IssueSessionCommand)
    (hp : Progress L i begun s []) :
    Safe L.contract D.serve allowed i (fun t _ => Settled i t)
      (IssueSession.execute D.sha256 D.expiryPolicy D.maxConcurrentSessions passes command) s := by
  unfold IssueSession.execute
  split
  · exact safe_settled hp
  · refine safe_now hkept hp fun t now _ hp_t => ?_
    split
    · exact (safe_evictOldestUntilUnderLimit hkept _ _ now passes hp_t).bind
        fun u _ hp_u => safe_openSession hkept command now hp_u
    · exact safe_openSession hkept command now hp_t

/-- Rotation uses up the presented token and stores its successor under the hash that was
drawn. -/
theorem safe_rotate (hkept : KeptBy D L allowed) (command : RefreshAccessTokenCommand)
    {presented stored : RefreshToken} {session : Session} (now : ℤ)
    (hp : Progress L i begun s [])
    (hhash : presented.tokenHash = RefreshToken.hashToken D.sha256 command.refreshToken)
    (hstored : s.refreshTokensByHash.get? presented.tokenHash = some stored)
    (hsame : stored.sessionId = presented.sessionId)
    (hfound : (i, .foundSession session.id) ∈ s.journal)
    (hsession : s.sessionsById.get? session.id ≠ none) (hactive : session.isRevoked = false)
    (hunrevoked : ∃ v, L.rel begun v ∧ ¬ v.Revoked presented.sessionId) :
    Safe L.contract D.serve allowed i
      (fun t result => Settled i t ∧ ∀ pair, result = .ok pair → Refreshed D L i begun t command)
      (RefreshAccessToken.rotate D.sha256 D.expiryPolicy presented session now) s := by
  refine safe_randomToken hkept hp fun t token hst hp_t hdrew hnone => ?_
  refine safe_createId hkept hp_t fun u tokenId htu hp_u _ _ => ?_
  have hsu := hst.trans htu
  have hdrew_u := htu.deeds _ hdrew
  have hnone_u := htu.ownToken _ hdrew hnone
  obtain ⟨stored_u, hstored_u, hsame_u⟩ := hsu.token _ _ hstored
  -- the drawn hash is not that of the presented token, which is stored
  have hne : RefreshToken.hashToken D.sha256 token ≠ presented.tokenHash := by
    intro heq
    rw [← heq, hnone_u] at hstored_u
    cases hstored_u
  refine safe_saveRefreshToken hkept (fun v hv => .inl ⟨rfl, ?_⟩) hp_u
    fun v huv hused hp_v => ?_
  · obtain ⟨stored_v, hstored_v, hsame_v⟩ := hv.token _ _ hstored_u
    exact ⟨stored_v, hstored_v, hsame_v.trans (hsame_u.trans hsame)⟩
  have hredeemed := redeemed_saveRefreshToken_markUsed (i := i) (s := v) presented now
  have hcarries := huv.trans (hused rfl)
  have hdrew_v := hcarries.deeds _ hdrew_u
  have hnone_v := hcarries.ownToken _ hdrew_u hnone_u
  have hfound_v := hcarries.deeds _ (hsu.deeds _ hfound)
  have hsession_v := hcarries.session _ (hsu.session _ hsession)
  refine safe_saveRefreshToken hkept
    (fun w hw => .inr ⟨rfl, hw.ownToken _ hdrew_v hnone_v, hw.deeds _ hdrew_v⟩) hp_v
    fun w hvw _ hp_w => ?_
  have hredeemed_w := (hredeemed.of_carries hvw).saveRefreshToken
    (r := .issue D.sha256 token tokenId session.id (D.expiryPolicy.refreshTokenExpiryFrom now) now)
    hne
  refine safe_save hkept (fun x hx => .inl ⟨hx.session _ ?_, .inr (hx.deeds _ ?_)⟩) hp_w
    fun x hwx hp_x hrel => ?_
  · rw [SessionStore.sessionsById_saveRefreshToken]
    exact hvw.session _ hsession_v
  · exact (SessionStore.mem_journal_saveRefreshToken w i).mpr (.inr (hvw.deeds _ hfound_v))
  have hredeemed_x := (hredeemed_w.of_carries hwx.1.toCarries).save (session.touch now)
  have hp_saved := hp_x.save_of_not_revoked hrel hactive
  refine safe_sign hkept hp_saved fun y _ hxy hp_y => ?_
  refine fun z hz _ => ⟨(hp_y.of_rely hz).settled, fun pair _ => ?_⟩
  rw [Refreshed, ← hhash]
  exact ⟨_, (hredeemed_x.of_carries hxy).of_carries hz.1.toCarries, hunrevoked⟩

theorem safe_refreshAccessToken (hkept : KeptBy D L allowed) (command : RefreshAccessTokenCommand)
    (hp : Progress L i begun s []) :
    Safe L.contract D.serve allowed i
      (fun t result => Settled i t ∧ ∀ pair, result = .ok pair → Refreshed D L i begun t command)
      (RefreshAccessToken.execute D.sha256 D.expiryPolicy command) s := by
  have hrefuse : ∀ t, Progress L i begun t [] → Safe L.contract D.serve allowed i
      (fun t result => Settled i t ∧ ∀ pair, result = .ok pair → Refreshed D L i begun t command)
      (pure (.error {}) : SessionProgram (Except AuthenticationError RefreshedAccessToken)) t :=
    fun t hp_t u hu _ => ⟨(hp_t.of_rely hu).settled, fun pair hpair => by cases hpair⟩
  refine safe_findRefreshTokenByHash hkept hp hrefuse fun t presented hp_t hhash hstored => ?_
  refine safe_findById hkept hp_t hrefuse
    fun u session htu hp_u hid hsession hfound hunrevoked => ?_
  refine safe_now hkept hp_u fun v now huv hp_v => ?_
  split
  · -- the token was used before
    refine safe_save hkept (fun w hw => .inl ⟨?_, .inl ?_⟩) hp_v fun w _ hp_w hrel => ?_
    · rw [Session.revokeDueToRefreshTokenReuse_id, hid]
      exact hw.session _ (huv.session _ hsession)
    · exact session.isRevoked_revokeDueToRefreshTokenReuse presented.id now
    · exact safe_revoke hkept (hp_w.save hrel) fun x _ hp_x => hrefuse x hp_x
  · split
    · exact hrefuse v hp_v
    · rename_i hactive
      have hunrevoked' : session.isRevoked = false :=
        @Session.isRevoked_of_isActive session D.expiryPolicy now (by simp_all)
      obtain ⟨stored, hstored_v, hsame⟩ := (htu.trans huv).token _ _ hstored
      refine safe_rotate hkept command now hp_v hhash (hhash ▸ hstored_v) hsame ?_ ?_ hunrevoked'
        (hunrevoked hunrevoked')
      · rw [hid]
        exact huv.deeds _ hfound
      · rw [hid]
        exact huv.session _ hsession

theorem safe_logout (hkept : KeptBy D L allowed) (command : LogoutCommand)
    (hp : Progress L i begun s []) :
    Safe L.contract D.serve allowed i (fun t _ => Settled i t) (Logout.execute command) s := by
  unfold Logout.execute
  split
  · exact safe_settled hp
  · refine safe_findById hkept hp (fun t hp_t => safe_settled hp_t)
      fun t session _ hp_t hid hsession _ _ => ?_
    refine safe_now hkept hp_t fun u now htu hp_u => ?_
    refine safe_save hkept (fun v hv => .inl ⟨?_, .inl (session.isRevoked_revoke now)⟩) hp_u
      fun v _ hp_v hrel => ?_
    · rw [Session.revoke_id, hid]
      exact hv.session _ (htu.session _ hsession)
    · have hp_saved := hp_v.save hrel
      rw [Session.revoke_id, hid] at hp_saved
      exact safe_revoke hkept hp_saved fun w _ hp_w => safe_settled hp_w

/-- Putting sessions on the list leaves nothing to be put there. -/
theorem safe_revokeEach (hkept : KeptBy D L allowed) (expiry : ℤ) (sessions : List Session)
    (hp : Progress L i begun s []) :
    Safe L.contract D.serve allowed i (fun t _ => Progress L i begun t [])
      (LogoutEverywhere.revokeEach expiry sessions) s := by
  induction sessions generalizing s with
  | nil => exact fun t ht _ => hp.of_rely ht
  | cons session sessions ih =>
    have hp_weak : Progress L i begun s [session.id] :=
      ⟨hp.rel, fun id hid => (hp.settled id hid).imp_right fun h => absurd h (by simp)⟩
    exact safe_revoke hkept hp_weak fun t _ hp_t => ih hp_t

theorem safe_logoutEverywhere (hkept : KeptBy D L allowed) (command : LogoutEverywhereCommand)
    (hp : Progress L i begun s []) :
    Safe L.contract D.serve allowed i (fun t _ => Settled i t) (LogoutEverywhere.execute command)
      s := by
  unfold LogoutEverywhere.execute
  split
  · exact safe_settled hp
  · refine safe_now hkept hp fun t now _ hp_t => ?_
    refine safe_findActiveByUserId hkept hp_t fun u active _ hp_u _ => ?_
    refine safe_plain hkept (.settleOrder active) trivial (fun _ => trivial) hp_u
      fun _ _ settled v _ _ _ hp_v _ _ => ?_
    refine (safe_revokeEach hkept _ settled hp_v).bind fun w _ hp_w => ?_
    exact safe_plain hkept (.revokeAllForUser _ _) trivial (fun _ => trivial) hp_w
      fun _ _ _ x _ _ _ hp_x _ _ => safe_settled hp_x

/-! ## Any number of use cases -/

/-- Thread `i` has not done anything yet. -/
def Idle (i : ℕ) (s : SessionStore) : Prop := ∀ deed, (i, deed) ∉ s.journal

theorem Idle.of_rely (h : Idle i s) (hst : L.contract.rely i s t) : Idle i t :=
  fun deed hdeed => h deed (hst.1.own deed hdeed)

/-- Every use case keeps to the contract. -/
theorem safe_sessionCommand (hkept : KeptBy D L allowed) (c : SessionCommand) (hidle : Idle i s) :
    Safe L.contract D.serve allowed i (c.Done D L i s) (D.body c) s := by
  have hp : Progress L i s s [] := ⟨L.rel_refl s, fun id hid => absurd hid (hidle _)⟩
  cases c with
  | issueSession passes command => exact safe_issueSession hkept passes command hp
  | refreshAccessToken command => exact safe_refreshAccessToken hkept command hp
  | logout command => exact safe_logout hkept command hp
  | logoutEverywhere command => exact safe_logoutEverywhere hkept command hp

/-- Use cases that work on one store keep to the contract. -/
abbrev SoundSessions (D : SessionDeployment) (L : SessionLaw)
    (allowed : ℕ → SessionStore → SessionRequest → SessionInput → Prop) (P : SessionPool) : Prop :=
  Sound L.contract D.serve allowed Idle (fun i c begun t result => c.Done D L i begun t result) P

/-- A store that was handed over with an empty journal. -/
theorem soundSessions_initial (hjournal : s.journal = []) (hinv : L.inv s) :
    SoundSessions D L allowed (Pool.initial s) := by
  refine sound_initial ⟨⟨?_, ?_, ?_⟩, hinv⟩ fun i deed => ?_ <;> simp [hjournal]

/-- The use cases keep to the contract in every run. -/
theorem soundSessions_of_run (hkept : KeptBy D L allowed) {P P' : SessionPool}
    (h : SoundSessions D L allowed P)
    (hrun : RunWhile D.step (fun P e => P.Allows allowed e) P P') :
    SoundSessions D L allowed P' :=
  sound_of_run (fun _ _ _ hst hidle => hidle.of_rely hst)
    (fun _ c _ _ hidle => safe_sessionCommand hkept c hidle) h hrun

/-- The relation of the law holds between the ends of a run, and between its first end and the
stores in which use cases are started during it. -/
theorem rel_of_run (hkept : KeptBy D L allowed) {P P' : SessionPool}
    (h : SoundSessions D L allowed P)
    (hrun : RunWhile D.step (fun P e => P.Allows allowed e) P P') :
    L.rel P.store P'.store ∧
      ∀ i t, P.threads i = none → P'.threads i = some t → L.rel P.store t.begun := by
  have hrel : ∀ i s t, L.contract.rely i s t → L.rel s t := fun _ _ _ hst => hst.2
  exact Sound.relates_of_run L.rel_refl L.rel_trans hrel (fun _ _ _ hst hidle => hidle.of_rely hst)
    (fun _ c _ _ hidle => safe_sessionCommand hkept c hidle) h hrun

/-- A use case that has returned has left nothing to be put on the list. -/
theorem SessionCommand.Done.settled {c : SessionCommand} {result : c.Result}
    (h : c.Done D L i begun t result) : Settled i t := by
  cases c with
  | refreshAccessToken command => exact h.1
  | issueSession passes command => exact h
  | logout command => exact h
  | logoutEverywhere command => exact h

/-- When no use case is in progress, none has left anything to be put on the list. -/
theorem settled_of_quiescent {P : SessionPool} (h : SoundSessions D L allowed P)
    (hquiescent : P.Quiescent) (i : ℕ) : Settled i P.store := by
  match hi : P.threads i with
  | none => exact fun id hid => absurd hid (h.idle i hi _)
  | some ⟨c, begun, .ret result⟩ =>
    have hdone : c.Done D L i begun P.store result := h.done_of_ret hi
    exact hdone.settled
  | some ⟨c, begun, .call q k⟩ =>
    have hreturned := hquiescent i _ hi
    simp [Program.result?] at hreturned

end Verixa
