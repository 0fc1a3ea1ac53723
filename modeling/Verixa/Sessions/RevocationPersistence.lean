import Verixa.Sessions.SessionSafety

/-!
# Revoked sessions stay revoked

A refresh saves the session it read, with the moment of its last activity moved.  If the session
is revoked between the read and the save, the save takes the revocation back
(`revocation_taken_back`).  In runs in which every refresh that saves a session as not revoked
finds it not revoked at that moment (`FindsUnrevoked`), a session that is stored as revoked is so
from then on, and no refresh started from then on returns tokens for it
(`revoked_stays_revoked`).  New sessions, both logouts and evictions need no condition.
-/

namespace Verixa

open Concurrency

/-- A thread that saves, as not revoked, a session it has found before, finds the stored session
not revoked. -/
def findsUnrevoked (i : ℕ) (s : SessionStore) : SessionRequest → Bool
  | .save session =>
    session.isRevoked || !decide ((i, .foundSession session.id) ∈ s.journal) ||
      (s.sessionsById.get? session.id).all fun stored => !stored.isRevoked
  | _ => true

/-- `findsUnrevoked`, as a condition on the calls of a run. -/
def FindsUnrevoked (i : ℕ) (s : SessionStore) (q : SessionRequest) (_ : SessionInput) : Prop :=
  findsUnrevoked i s q = true

instance (i : ℕ) (s : SessionStore) (q : SessionRequest) (ω : SessionInput) :
    Decidable (FindsUnrevoked i s q ω) :=
  inferInstanceAs (Decidable (_ = true))

/-- What is revoked in `s` is revoked in `t`. -/
def KeepsRevoked (s t : SessionStore) : Prop :=
  ∀ sessionId, s.Revoked sessionId → t.Revoked sessionId

/-- The law of revocation. -/
def revocation : SessionLaw where
  inv _ := True
  rel := KeepsRevoked
  rel_refl _ _ h := h
  rel_trans _ _ _ hst htu sessionId h := htu sessionId (hst sessionId h)

variable {D : SessionDeployment} {i : ℕ} {s u : SessionStore}

/-- Revocation looks at stored sessions only. -/
theorem keepsRevoked_of_eq (h : u.sessionsById = s.sessionsById) : KeepsRevoked s u := by
  rintro sessionId ⟨session, hsession, hrevoked⟩
  exact ⟨session, h ▸ hsession, hrevoked⟩

/-- A justified save keeps revocations if it finds unrevoked what it saves as not revoked. -/
theorem keepsRevoked_save {session : Session} (hjust : Justified D i s (.save session))
    (hfinds : findsUnrevoked i s (.save session) = true) : KeepsRevoked s (s.save i session) := by
  rintro sessionId ⟨stored, hstored, hrevoked⟩
  by_cases hid : session.id = sessionId
  · subst hid
    refine ⟨session, ?_, ?_⟩
    · rw [SessionStore.sessionsById_save]
      exact KeyedMap.get?_put_self _ _
    · rcases hjust with ⟨-, hsaved | hfound⟩ | ⟨hnone, -⟩
      · exact hsaved
      · simpa [findsUnrevoked, hfound, hstored, hrevoked] using hfinds
      · rw [hnone] at hstored
        cases hstored
  · refine ⟨stored, ?_, hrevoked⟩
    rw [SessionStore.sessionsById_save, KeyedMap.get?_put_of_ne _ hid]
    exact hstored

/-- A bulk revocation keeps revocations. -/
theorem keepsRevoked_revokeAllForUser (userId : String) (now : ℤ) :
    KeepsRevoked s (s.revokeAllForUser userId now) := by
  rintro sessionId ⟨stored, hstored, hrevoked⟩
  refine ⟨if stored.userId = userId then stored.revoke now else stored, ?_, ?_⟩
  · rw [SessionStore.get?_revokeAllForUser, hstored]
    rfl
  · split
    · exact stored.isRevoked_revoke now
    · exact hrevoked

/-- Justified calls that find unrevoked what they save as not revoked keep the law. -/
theorem keptBy_revocation : KeptBy D revocation FindsUnrevoked := by
  intro i s q ω r u _ _ hjust hfinds hserve
  refine ⟨trivial, ?_⟩
  rcases serve_cases hserve with huntouched | ⟨refreshToken, rfl, rfl⟩ | ⟨session, rfl, rfl⟩ |
    ⟨userId, now, rfl, rfl⟩ | ⟨sessionId, expiry, rfl, rfl⟩ | ⟨payload, ttlSeconds, t, rfl, -, rfl⟩
  · exact keepsRevoked_of_eq huntouched.sessionsById
  · exact keepsRevoked_of_eq (SessionStore.sessionsById_saveRefreshToken s i refreshToken)
  · exact keepsRevoked_save hjust hfinds
  · exact keepsRevoked_revokeAllForUser userId now
  · exact keepsRevoked_of_eq rfl
  · exact keepsRevoked_of_eq rfl

/-! ## Runs -/

/-- Whatever is revoked in `P` is revoked in the later `P'`, and the session of a refresh that was
started after `P` and has returned tokens in `P'` was not revoked in `P`. -/
def StaysRevoked (D : SessionDeployment) (P P' : SessionPool) : Prop :=
  ∀ sessionId, P.store.Revoked sessionId → P'.store.Revoked sessionId ∧
    ∀ i command pair stored, P.threads i = none →
      P'.returned i = some ⟨.refreshAccessToken command, .ok pair⟩ →
      P'.store.refreshTokensByHash.get? (RefreshToken.hashToken D.sha256 command.refreshToken) =
        some stored → stored.sessionId ≠ sessionId

/-- In runs in which every refresh that saves a session as not revoked finds it not revoked, a
session that is stored as revoked stays so, and no refresh started later returns tokens for it. -/
theorem revoked_stays_revoked (hjournal : s.journal = []) {P P' : SessionPool}
    (hrun : RunWhile D.step (fun P e => P.Allows FindsUnrevoked e) (Pool.initial s) P)
    (hrun' : RunWhile D.step (fun P e => P.Allows FindsUnrevoked e) P P') :
    StaysRevoked D P P' := by
  have hsound := soundSessions_of_run keptBy_revocation
    (soundSessions_initial (L := revocation) hjournal trivial) hrun
  have hsound' := soundSessions_of_run keptBy_revocation hsound hrun'
  obtain ⟨hkeeps, hbegun⟩ := rel_of_run keptBy_revocation hsound hrun'
  intro sessionId hrevoked
  refine ⟨hkeeps sessionId hrevoked, fun i command pair stored hnone hi hstored => ?_⟩
  rintro rfl
  obtain ⟨begun, hi⟩ := Pool.threads_of_returned hi
  have hdone : SessionCommand.Done D revocation i begun P'.store (.refreshAccessToken command)
    (.ok pair) := hsound'.done_of_ret hi
  obtain ⟨found, ⟨-, stored', hstored', rfl⟩, v, hbegun_v, hunrevoked⟩ := hdone.2 pair rfl
  obtain rfl : stored' = stored := Option.some.inj (hstored'.symm.trans hstored)
  -- the refresh began when the session was revoked already
  exact hunrevoked (hbegun_v _ (hbegun i _ hnone hi _ hrevoked))

/-- Thread `i` logs the first session out, from start to end. -/
def logoutOf (i : ℕ) : SessionSchedule :=
  [.start i (.logout ⟨sampleSessionId, none⟩), .answer i .served,
    .answer i (.time sampleRefreshedAt), .answer i .served, .answer i .served]

/-- A refresh has read the sample session when it is logged out. -/
def sampleLoggedOut : SessionPool :=
  (exec sampleDeployment.step (Pool.initial SessionStore.empty)
    (sampleOpening ++ readingOf 1 ++ logoutOf 2)).get (by decide +kernel)

/-- The refresh goes on. -/
def sampleResurrected : SessionPool :=
  (exec sampleDeployment.step sampleLoggedOut
    (rotationOf 1 sampleNextToken "9118bb16-000f-49c8-9a35-8ca00d75985d")).get (by decide +kernel)

/-- A slow refresh can take a logout back. -/
theorem revocation_taken_back :
    ∃ P P', Run sampleDeployment.step (Pool.initial SessionStore.empty) P ∧
      Run sampleDeployment.step P P' ∧ ¬ StaysRevoked sampleDeployment P P' := by
  refine ⟨sampleLoggedOut, sampleResurrected, runWhile_get _, runWhile_get _, fun hstays => ?_⟩
  have hrevoked : sampleLoggedOut.store.Revoked sampleSessionId := by decide +kernel
  have hunrevoked : ¬ sampleResurrected.store.Revoked sampleSessionId := by decide +kernel
  exact hunrevoked (hstays sampleSessionId hrevoked).1

/-- The sample session is logged out while nothing else happens. -/
def sampleQuit : SessionPool :=
  (execWhile sampleDeployment.step (fun P e => P.Allows FindsUnrevoked e)
    (Pool.initial SessionStore.empty) (sampleOpening ++ logoutOf 1)).get (by decide +kernel)

/-- Its refresh token is presented afterwards. -/
def sampleQuitLater : SessionPool :=
  (execWhile sampleDeployment.step (fun P e => P.Allows FindsUnrevoked e) sampleQuit
    (readingOf 2)).get (by decide +kernel)

/-- The logout stands, and the refresh is refused. -/
theorem revoked_stays_revoked_sample :
    StaysRevoked sampleDeployment sampleQuit sampleQuitLater ∧
      sampleQuit.store.Revoked sampleSessionId ∧
      sampleQuitLater.returned 2 = some ⟨.refreshAccessToken ⟨sampleToken⟩, .error {}⟩ :=
  ⟨@revoked_stays_revoked sampleDeployment SessionStore.empty rfl sampleQuit sampleQuitLater
    (runWhile_get _) (runWhile_get _), by decide +kernel, by decide +kernel⟩

end Verixa
