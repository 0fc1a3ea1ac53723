import Verixa.Sessions.SessionUseCases

/-!
# What the use cases leave to each other

Whatever the others do between two calls of a use case, what it has done stays done, a session or
token that is stored stays stored, an id or token it has drawn stays its own until it stores it,
and a session stays on the revocation list (`Spares`).  For this each call must be `Justified`: a
session is saved by a thread that has found it or drawn its id, a refresh token by one that uses
it up or has drawn it.  The four use cases make justified calls only (`safe_body`).

A development adds to this a law of its own (`SessionLaw`): an invariant of the store and a
relation between stores which justified calls keep, possibly under a further condition on the
calls (`KeptBy`).  The walk through the use cases is done once, for every law.
-/

namespace Verixa

open Concurrency

/-! ## The contract -/

/-- Each drawn id and token has one owner, and who was denied is on the list. -/
structure SessionStore.WellFormed (s : SessionStore) : Prop where
  drewId_unique : ∀ i j id, (i, .drewId id) ∈ s.journal → (j, .drewId id) ∈ s.journal → i = j
  drewToken_unique : ∀ i j tokenHash, (i, .drewToken tokenHash) ∈ s.journal →
    (j, .drewToken tokenHash) ∈ s.journal → i = j
  listed_of_denied : ∀ i sessionId, (i, SessionDeed.denied sessionId) ∈ s.journal →
    s.Listed sessionId

/-- What thread `i` has found out or drawn in the store `s` is still so in the store `t`. -/
structure Carries (i : ℕ) (s t : SessionStore) : Prop where
  deeds : ∀ deed, (i, deed) ∈ s.journal → (i, deed) ∈ t.journal
  session : ∀ id, s.sessionsById.get? id ≠ none → t.sessionsById.get? id ≠ none
  token : ∀ tokenHash stored, s.refreshTokensByHash.get? tokenHash = some stored →
    ∃ stored', t.refreshTokensByHash.get? tokenHash = some stored' ∧
      stored'.sessionId = stored.sessionId
  ownId : ∀ id, (i, .drewId id) ∈ s.journal → s.sessionsById.get? id = none →
    t.sessionsById.get? id = none
  ownToken : ∀ tokenHash, (i, .drewToken tokenHash) ∈ s.journal →
    s.refreshTokensByHash.get? tokenHash = none → t.refreshTokensByHash.get? tokenHash = none
  listed : ∀ sessionId, s.Listed sessionId → t.Listed sessionId

theorem Carries.refl (i : ℕ) (s : SessionStore) : Carries i s s where
  deeds _ h := h
  session _ h := h
  token _ stored h := ⟨stored, h, rfl⟩
  ownId _ _ h := h
  ownToken _ _ h := h
  listed _ h := h

theorem Carries.trans {i : ℕ} {s t u : SessionStore} (hst : Carries i s t) (htu : Carries i t u) :
    Carries i s u where
  deeds deed h := htu.deeds deed (hst.deeds deed h)
  session id h := htu.session id (hst.session id h)
  token tokenHash stored h := by
    obtain ⟨stored', h', hsame⟩ := hst.token tokenHash stored h
    obtain ⟨stored'', h'', hsame'⟩ := htu.token tokenHash stored' h'
    exact ⟨stored'', h'', hsame'.trans hsame⟩
  ownId id hdrew h := htu.ownId id (hst.deeds _ hdrew) (hst.ownId id hdrew h)
  ownToken tokenHash hdrew h :=
    htu.ownToken tokenHash (hst.deeds _ hdrew) (hst.ownToken tokenHash hdrew h)
  listed sessionId h := htu.listed sessionId (hst.listed sessionId h)

/-- What the others do between the stores `s` and `t` leaves thread `i` what it counts on. -/
structure Spares (i : ℕ) (s t : SessionStore) : Prop extends Carries i s t where
  own : ∀ deed, (i, deed) ∈ t.journal → (i, deed) ∈ s.journal

theorem Spares.refl (i : ℕ) (s : SessionStore) : Spares i s s :=
  ⟨Carries.refl i s, fun _ h => h⟩

theorem Spares.trans {i : ℕ} {s t u : SessionStore} (hst : Spares i s t) (htu : Spares i t u) :
    Spares i s u :=
  ⟨hst.toCarries.trans htu.toCarries, fun deed h => hst.own deed (htu.own deed h)⟩

/-- A law of the store: an invariant, and a relation between a store and every later one. -/
structure SessionLaw where
  inv : SessionStore → Prop
  rel : SessionStore → SessionStore → Prop
  rel_refl : ∀ s, rel s s
  rel_trans : ∀ s t u, rel s t → rel t u → rel s u

/-- The contract of the use cases under a law. -/
def SessionLaw.contract (L : SessionLaw) : Protocol SessionStore where
  inv s := s.WellFormed ∧ L.inv s
  rely i s t := Spares i s t ∧ L.rel s t
  rely_refl i s := ⟨Spares.refl i s, L.rel_refl s⟩
  rely_trans _ _ _ _ hst htu := ⟨hst.1.trans htu.1, L.rel_trans _ _ _ hst.2 htu.2⟩

variable {D : SessionDeployment} {L : SessionLaw} {i : ℕ} {s t u : SessionStore}

variable (D) in
/-- What thread `i` promises of a call it makes. -/
def Justified (i : ℕ) (s : SessionStore) : SessionRequest → Prop
  | .save session =>
    (s.sessionsById.get? session.id ≠ none ∧
        (session.isRevoked = true ∨ (i, .foundSession session.id) ∈ s.journal)) ∨
      (s.sessionsById.get? session.id = none ∧ (i, .drewId session.id) ∈ s.journal)
  | .saveRefreshToken refreshToken =>
    (refreshToken.isUsed = true ∧
        ∃ stored, s.refreshTokensByHash.get? refreshToken.tokenHash = some stored ∧
          stored.sessionId = refreshToken.sessionId) ∨
      (refreshToken.isUsed = false ∧
        s.refreshTokensByHash.get? refreshToken.tokenHash = none ∧
        (i, .drewToken refreshToken.tokenHash) ∈ s.journal)
  | .sign _ ttlSeconds => ttlSeconds = D.expiryPolicy.accessTokenTtlSeconds
  | _ => True

variable (D) in
/-- Justified calls that meet `allowed` keep the law. -/
def KeptBy (L : SessionLaw) (allowed : ℕ → SessionStore → SessionRequest → SessionInput → Prop) :
    Prop :=
  ∀ i s q ω r u, s.WellFormed → L.inv s → Justified D i s q → allowed i s q ω →
    D.serve i s q ω = some (r, u) → L.inv u ∧ L.rel s u

/-! ## Calls keep to the contract -/

/-- A deed that draws nothing that is not new, and denies nobody who is not on the list, leaves
the store well formed. -/
theorem SessionStore.WellFormed.note (h : s.WellFormed) {deed : SessionDeed}
    (hid : ∀ id, deed = .drewId id → s.FreshId id)
    (htoken : ∀ tokenHash, deed = .drewToken tokenHash → s.FreshToken tokenHash)
    (hdenied : ∀ sessionId, deed = .denied sessionId → s.Listed sessionId) :
    (s.note i deed).WellFormed where
  drewId_unique j k id hj hk := by
    simp only [SessionStore.journal_note, List.mem_cons, Prod.mk.injEq] at hj hk
    rcases hj with ⟨rfl, hj⟩ | hj <;> rcases hk with ⟨rfl, hk⟩ | hk
    · rfl
    · exact absurd rfl ((hid id hj.symm).2 _ hk)
    · exact absurd rfl ((hid id hk.symm).2 _ hj)
    · exact h.drewId_unique j k id hj hk
  drewToken_unique j k tokenHash hj hk := by
    simp only [SessionStore.journal_note, List.mem_cons, Prod.mk.injEq] at hj hk
    rcases hj with ⟨rfl, hj⟩ | hj <;> rcases hk with ⟨rfl, hk⟩ | hk
    · rfl
    · exact absurd rfl ((htoken tokenHash hj.symm).2 _ hk)
    · exact absurd rfl ((htoken tokenHash hk.symm).2 _ hj)
    · exact h.drewToken_unique j k tokenHash hj hk
  listed_of_denied j sessionId hj := by
    simp only [SessionStore.journal_note, List.mem_cons, Prod.mk.injEq] at hj
    rcases hj with ⟨-, hj⟩ | hj
    · exact hdenied sessionId hj.symm
    · exact h.listed_of_denied j sessionId hj

/-- Being well formed is a matter of the journal and the list. -/
theorem SessionStore.WellFormed.of_journal (h : s.WellFormed)
    (hjournal : ∀ j deed, (j, deed) ∈ t.journal →
      (j, deed) ∈ s.journal ∨ (∃ id, deed = .revoked id) ∨ ∃ tokenHash, deed = .redeemed tokenHash)
    (hlisted : ∀ sessionId, s.Listed sessionId → t.Listed sessionId) : t.WellFormed where
  drewId_unique j k id hj hk := by
    have hj' := hjournal j _ hj
    have hk' := hjournal k _ hk
    simp only [reduceCtorEq, exists_false, or_false] at hj' hk'
    exact h.drewId_unique j k id hj' hk'
  drewToken_unique j k tokenHash hj hk := by
    have hj' := hjournal j _ hj
    have hk' := hjournal k _ hk
    simp only [reduceCtorEq, exists_false, or_false] at hj' hk'
    exact h.drewToken_unique j k tokenHash hj' hk'
  listed_of_denied j sessionId hj := by
    have hj' := hjournal j _ hj
    simp only [reduceCtorEq, exists_false, or_false] at hj'
    exact hlisted sessionId (h.listed_of_denied j sessionId hj')

/-- A write to the list. -/
theorem SessionStore.WellFormed.deny (h : s.WellFormed) (sessionId : String) (expiry : ℤ) :
    (s.deny i sessionId expiry).WellFormed := by
  have hset : WellFormed { s with
      revokedUntilBySessionId := s.revokedUntilBySessionId.set sessionId expiry } :=
    h.of_journal (fun _ _ hd => .inl hd) fun other hl =>
      (SessionStore.listed_deny (i := i)).mpr (.inr hl)
  refine hset.note (by rintro _ ⟨⟩) (by rintro _ ⟨⟩) fun other hd => ?_
  cases hd
  exact ⟨expiry, OrderedMap.get?_set_self _ _ _⟩

/-- A deed changes nothing that is carried. -/
theorem carries_note (j : ℕ) (deed : SessionDeed) : Carries j s (s.note i deed) where
  deeds _ h := List.mem_cons_of_mem _ h
  session _ h := h
  token _ stored h := ⟨stored, h, rfl⟩
  ownId _ _ h := h
  ownToken _ _ h := h
  listed _ h := h

theorem carries_deny (j : ℕ) (sessionId : String) (expiry : ℤ) :
    Carries j s (s.deny i sessionId expiry) where
  deeds _ h := List.mem_cons_of_mem _ h
  session _ h := h
  token _ stored h := ⟨stored, h, rfl⟩
  ownId _ _ h := h
  ownToken _ _ h := h
  listed _ h := SessionStore.listed_deny.mpr (.inr h)

theorem carries_revokeAllForUser (j : ℕ) (userId : String) (now : ℤ) :
    Carries j s (s.revokeAllForUser userId now) where
  deeds _ h := h
  session id h := by
    rw [SessionStore.get?_revokeAllForUser]
    simpa using h
  token _ stored h := ⟨stored, h, rfl⟩
  ownId id _ h := by
    rw [SessionStore.get?_revokeAllForUser, h]
    rfl
  ownToken _ _ h := h
  listed _ h := h

theorem carries_record (j : ℕ) (entry : RecordedSessionAuditEntry) :
    Carries j s (s.record entry) where
  deeds _ h := h
  session _ h := h
  token _ stored h := ⟨stored, h, rfl⟩
  ownId _ _ h := h
  ownToken _ _ h := h
  listed _ h := h

/-- A deed of another thread. -/
theorem spares_note {j : ℕ} (hj : j ≠ i) (deed : SessionDeed) : Spares j s (s.note i deed) :=
  ⟨carries_note j deed, fun deed' h => by simpa [hj] using h⟩

/-- A write to the list by another thread. -/
theorem spares_deny {j : ℕ} (hj : j ≠ i) (sessionId : String) (expiry : ℤ) :
    Spares j s (s.deny i sessionId expiry) :=
  ⟨carries_deny j sessionId expiry, fun deed' h => by simpa [hj] using h⟩

/-- A justified save by another thread. -/
theorem spares_save {j : ℕ} (hj : j ≠ i) (hwf : s.WellFormed) {session : Session}
    (hjust : Justified D i s (.save session)) : Spares j s (s.save i session) where
  deeds deed h := (SessionStore.mem_journal_save s i).mpr (.inr h)
  own deed h := by simpa [SessionStore.mem_journal_save, hj] using h
  session id h := by
    rw [SessionStore.sessionsById_save, KeyedMap.get?_put]
    split
    · simp
    · exact h
  token _ stored h := ⟨stored, by simpa using h, rfl⟩
  ownId id hdrew h := by
    rw [SessionStore.sessionsById_save, KeyedMap.get?_put_of_ne _ ?_]
    · exact h
    · rintro rfl
      rcases hjust with ⟨hstored, -⟩ | ⟨-, hdrew'⟩
      · exact hstored h
      · exact hj (hwf.drewId_unique j i _ hdrew hdrew')
  ownToken _ _ h := by simpa using h
  listed _ h := by simpa [SessionStore.Listed] using h

/-- A justified save of a refresh token, by another thread or of a used one. -/
theorem carries_saveRefreshToken {j : ℕ} (hwf : s.WellFormed) {refreshToken : RefreshToken}
    (hjust : Justified D i s (.saveRefreshToken refreshToken))
    (hj : j ≠ i ∨ refreshToken.isUsed = true) :
    Carries j s (s.saveRefreshToken i refreshToken) where
  deeds deed h := (SessionStore.mem_journal_saveRefreshToken s i).mpr (.inr h)
  session _ h := by simpa using h
  token tokenHash stored h := by
    rw [SessionStore.refreshTokensByHash_saveRefreshToken, KeyedMap.get?_put]
    split
    · rename_i hhash
      subst hhash
      rcases hjust with ⟨-, stored', hstored', hsame⟩ | ⟨-, hnone, -⟩
      · obtain rfl : stored' = stored := Option.some.inj (hstored'.symm.trans h)
        exact ⟨refreshToken, rfl, hsame.symm⟩
      · rw [hnone] at h
        cases h
    · exact ⟨stored, h, rfl⟩
  ownId _ _ h := by simpa using h
  ownToken tokenHash hdrew h := by
    rw [SessionStore.refreshTokensByHash_saveRefreshToken, KeyedMap.get?_put_of_ne _ ?_]
    · exact h
    · rintro rfl
      rcases hjust with ⟨-, stored, hstored, -⟩ | ⟨hunused, -, hdrew'⟩
      · rw [hstored] at h
        cases h
      · rcases hj with hj | hused
        · exact hj (hwf.drewToken_unique j i _ hdrew hdrew')
        · rw [hunused] at hused
          cases hused
  listed _ h := by simpa [SessionStore.Listed] using h

/-- A justified save of a refresh token by another thread. -/
theorem spares_saveRefreshToken {j : ℕ} (hj : j ≠ i) (hwf : s.WellFormed)
    {refreshToken : RefreshToken} (hjust : Justified D i s (.saveRefreshToken refreshToken)) :
    Spares j s (s.saveRefreshToken i refreshToken) :=
  ⟨carries_saveRefreshToken hwf hjust (.inl hj), fun deed h => by
    simpa [SessionStore.mem_journal_saveRefreshToken, hj] using h⟩

/-- A justified call leaves the store well formed and spares the other threads. -/
theorem wellFormed_and_spares_of_serve {q : SessionRequest} {ω : SessionInput} {r : q.Answer}
    (hwf : s.WellFormed) (hjust : Justified D i s q) (h : D.serve i s q ω = some (r, u)) :
    u.WellFormed ∧ ∀ j, j ≠ i → Spares j s u := by
  cases q with
  | now =>
    obtain rfl := SessionStore.serve_now h
    exact ⟨hwf.note (by rintro _ ⟨⟩) (by rintro _ ⟨⟩) (by rintro _ ⟨⟩),
      fun j hj => spares_note hj _⟩
  | createId =>
    obtain ⟨hfresh, rfl⟩ := SessionStore.serve_createId h
    refine ⟨hwf.note (fun id hd => ?_) (by rintro _ ⟨⟩) (by rintro _ ⟨⟩),
      fun j hj => spares_note hj _⟩
    cases hd
    exact hfresh
  | randomToken =>
    obtain ⟨hfresh, rfl⟩ := SessionStore.serve_randomToken h
    refine ⟨hwf.note (by rintro _ ⟨⟩) (fun tokenHash hd => ?_) (by rintro _ ⟨⟩),
      fun j hj => spares_note hj _⟩
    cases hd
    exact hfresh
  | findRefreshTokenByHash tokenHash =>
    obtain ⟨-, rfl⟩ := SessionStore.serve_findRefreshTokenByHash h
    exact ⟨hwf, fun j _ => Spares.refl j u⟩
  | saveRefreshToken refreshToken =>
    obtain rfl := SessionStore.serve_saveRefreshToken h
    refine ⟨hwf.of_journal (fun j deed hd => ?_)
        (fun _ hl => by simpa [SessionStore.Listed] using hl),
      fun j hj => spares_saveRefreshToken hj hwf hjust⟩
    rcases (SessionStore.mem_journal_saveRefreshToken s i).mp hd with ⟨-, hd⟩ | hd
    · cases hd
      exact .inr (.inr ⟨_, rfl⟩)
    · exact .inl hd
  | findById id =>
    obtain ⟨-, rfl⟩ := SessionStore.serve_findById h
    exact ⟨hwf.note (by rintro _ ⟨⟩) (by rintro _ ⟨⟩) (by rintro _ ⟨⟩),
      fun j hj => spares_note hj _⟩
  | save session =>
    obtain rfl := SessionStore.serve_save h
    refine ⟨hwf.of_journal (fun j deed hd => ?_)
        (fun _ hl => by simpa [SessionStore.Listed] using hl),
      fun j hj => spares_save hj hwf hjust⟩
    rcases (SessionStore.mem_journal_save s i).mp hd with ⟨-, hd⟩ | hd
    · cases hd
      exact .inr (.inl ⟨_, rfl⟩)
    · exact .inl hd
  | findActiveByUserId userId =>
    obtain ⟨-, rfl⟩ := SessionStore.serve_findActiveByUserId h
    exact ⟨hwf, fun j _ => Spares.refl j u⟩
  | revokeAllForUser userId now =>
    obtain rfl := SessionStore.serve_revokeAllForUser h
    exact ⟨hwf.of_journal (fun _ _ hd => .inl hd) (fun _ hl => hl),
      fun j _ => ⟨carries_revokeAllForUser j userId now, fun _ hd => hd⟩⟩
  | revoke sessionId expiry =>
    obtain rfl := SessionStore.serve_revoke h
    exact ⟨hwf.deny sessionId expiry, fun j hj => spares_deny hj sessionId expiry⟩
  | sign payload ttlSeconds =>
    obtain ⟨t, -, rfl⟩ := SessionStore.serve_sign h
    exact ⟨hwf.note (by rintro _ ⟨⟩) (by rintro _ ⟨⟩) (by rintro _ ⟨⟩),
      fun j hj => spares_note hj _⟩
  | record action actorId metadata =>
    obtain rfl := SessionStore.serve_record h
    exact ⟨hwf.of_journal (fun _ _ hd => .inl hd) (fun _ hl => hl),
      fun j _ => ⟨carries_record j _, fun _ hd => hd⟩⟩
  | settleOrder sessions =>
    obtain ⟨-, rfl⟩ := SessionStore.serve_settleOrder h
    exact ⟨hwf, fun j _ => Spares.refl j u⟩
  | stall => exact absurd h SessionStore.serve_stall

/-! ## What a call can change -/

/-- Deeds that laws of the store speak about. -/
def SessionDeed.Lasting : SessionDeed → Prop
  | .redeemed _ | .revoked _ | .denied _ | .signed _ _ => True
  | _ => False

/-- Nothing has changed but what was read or drawn. -/
structure Untouched (s u : SessionStore) : Prop where
  sessionsById : u.sessionsById = s.sessionsById
  refreshTokensByHash : u.refreshTokensByHash = s.refreshTokensByHash
  revokedUntilBySessionId : u.revokedUntilBySessionId = s.revokedUntilBySessionId
  deeds : ∀ j deed, deed.Lasting → ((j, deed) ∈ u.journal ↔ (j, deed) ∈ s.journal)

theorem untouched_note {deed : SessionDeed} (hdeed : ¬ deed.Lasting) :
    Untouched s (s.note i deed) where
  sessionsById := rfl
  refreshTokensByHash := rfl
  revokedUntilBySessionId := rfl
  deeds j deed' hlasting := by
    have hne : deed' ≠ deed := fun heq => hdeed (heq ▸ hlasting)
    simp [hne]

theorem untouched_refl (s : SessionStore) : Untouched s s := ⟨rfl, rfl, rfl, fun _ _ _ => Iff.rfl⟩

/-- A call changes nothing, or is one of the five that write or sign. -/
theorem serve_cases {q : SessionRequest} {ω : SessionInput} {r : q.Answer}
    (h : D.serve i s q ω = some (r, u)) :
    Untouched s u ∨
      (∃ refreshToken, q = .saveRefreshToken refreshToken ∧
        u = s.saveRefreshToken i refreshToken) ∨
      (∃ session, q = .save session ∧ u = s.save i session) ∨
      (∃ userId now, q = .revokeAllForUser userId now ∧ u = s.revokeAllForUser userId now) ∨
      (∃ sessionId expiry, q = .revoke sessionId expiry ∧ u = s.deny i sessionId expiry) ∨
      ∃ payload ttlSeconds t, q = .sign payload ttlSeconds ∧ ω = .time t ∧
        u = s.note i (.signed t (claimsAt payload ttlSeconds t)) := by
  cases q with
  | now =>
    obtain rfl := SessionStore.serve_now h
    exact .inl (untouched_note id)
  | createId =>
    obtain ⟨-, rfl⟩ := SessionStore.serve_createId h
    exact .inl (untouched_note id)
  | randomToken =>
    obtain ⟨-, rfl⟩ := SessionStore.serve_randomToken h
    exact .inl (untouched_note id)
  | findRefreshTokenByHash tokenHash =>
    obtain ⟨-, rfl⟩ := SessionStore.serve_findRefreshTokenByHash h
    exact .inl (untouched_refl u)
  | saveRefreshToken refreshToken =>
    exact .inr (.inl ⟨refreshToken, rfl, SessionStore.serve_saveRefreshToken h⟩)
  | findById id =>
    obtain ⟨-, rfl⟩ := SessionStore.serve_findById h
    exact .inl (untouched_note fun hlasting => hlasting)
  | save session => exact .inr (.inr (.inl ⟨session, rfl, SessionStore.serve_save h⟩))
  | findActiveByUserId userId =>
    obtain ⟨-, rfl⟩ := SessionStore.serve_findActiveByUserId h
    exact .inl (untouched_refl u)
  | revokeAllForUser userId now =>
    exact .inr (.inr (.inr (.inl ⟨userId, now, rfl, SessionStore.serve_revokeAllForUser h⟩)))
  | revoke sessionId expiry =>
    exact .inr (.inr (.inr (.inr (.inl ⟨sessionId, expiry, rfl, SessionStore.serve_revoke h⟩))))
  | sign payload ttlSeconds =>
    obtain ⟨t, hω, hu⟩ := SessionStore.serve_sign h
    exact .inr (.inr (.inr (.inr (.inr ⟨payload, ttlSeconds, t, rfl, hω, hu⟩))))
  | record action actorId metadata =>
    obtain rfl := SessionStore.serve_record h
    exact .inl ⟨rfl, rfl, rfl, fun _ _ _ => Iff.rfl⟩
  | settleOrder sessions =>
    obtain ⟨-, rfl⟩ := SessionStore.serve_settleOrder h
    exact .inl (untouched_refl u)
  | stall => exact absurd h SessionStore.serve_stall

end Verixa
