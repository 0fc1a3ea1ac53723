import Verixa.Sessions.SessionSafety

/-!
# Revocation reaches access tokens

A revoked session is put on the revocation list until its access tokens have expired, by the use
case that revoked it and in calls of their own.  `LogoutEverywhere` puts the sessions on the list
that it has read and then revokes all that are stored, so that a session opened in between is
revoked but not listed (`revoked_without_denial`).  And a token signed for a session after a use
case has read the clock for the end of the window may outlive the window.

In runs in which neither happens (`ReachesEveryToken`), and with access tokens that live for a day
at most, every session stored as revoked is on the list at least until every token signed for it
has expired, whenever no use case is in progress (`revocation_reaches_tokens`).
-/

namespace Verixa

open Concurrency

/-! ## The condition -/

section Condition

variable (expiryPolicy : SessionExpiryPolicy)

/-- The window ends where a use case that read the clock at `now` lets one end of its own. -/
def endsOwnWindow (now expiry : ℤ) : Bool :=
  decide (expiry = now + expiryPolicy.accessTokenTtlMs ∨
    expiry = now + DEFAULT_REVOCATION_WINDOW_MS)

/-- The deed is a clock reading of thread `i`, no earlier than `signedAt`, from which the end of
the window was computed. -/
def isWindowReading (i : ℕ) (signedAt expiry : ℤ) : ℕ × SessionDeed → Bool
  | (j, .readClock now) =>
    decide (j = i) && decide (signedAt ≤ now) && endsOwnWindow expiryPolicy now expiry
  | _ => false

/-- If the deed signs a token for the session, the token was signed before thread `i` computed the
window, or else expires with it. -/
def expiresWithin (i : ℕ) (s : SessionStore) (sessionId : String) (expiry : ℤ) :
    ℕ × SessionDeed → Bool
  | (_, .signed signedAt claims) =>
    !decide (claims.sessionId = sessionId) || decide (claims.expiry ≤ expiry) ||
      s.journal.any (isWindowReading expiryPolicy i signedAt expiry)
  | _ => true

/-- A call that revokes all sessions of a user finds none unrevoked that its thread has not put on
the list; a window for a session that is put on the list is long enough for the tokens signed
since its use case has read the clock; and a token signed for a session on the list expires with
the window. -/
def reachesEveryToken (i : ℕ) (s : SessionStore) : SessionRequest → SessionInput → Bool
  | .revokeAllForUser userId _, _ =>
    s.sessionsById.values.all fun session =>
      !decide (session.userId = userId) || session.isRevoked ||
        decide ((i, .denied session.id) ∈ s.journal)
  | .revoke sessionId expiry, _ => s.journal.all (expiresWithin expiryPolicy i s sessionId expiry)
  | .sign payload ttlSeconds, .time t =>
    (s.revokedUntilBySessionId.get? payload.sessionId).all fun expiry =>
      decide ((claimsAt payload ttlSeconds t).expiry ≤ expiry)
  | _, _ => true

/-- `reachesEveryToken`, as a condition on the calls of a run. -/
def ReachesEveryToken (i : ℕ) (s : SessionStore) (q : SessionRequest) (ω : SessionInput) : Prop :=
  reachesEveryToken expiryPolicy i s q ω = true

instance (i : ℕ) (s : SessionStore) (q : SessionRequest) (ω : SessionInput) :
    Decidable (ReachesEveryToken expiryPolicy i s q ω) :=
  inferInstanceAs (Decidable (_ = true))

end Condition

/-- The list holds the session until every token signed for it has expired. -/
def SessionStore.Covers (s : SessionStore) (sessionId : String) (expiry : ℤ) : Prop :=
  ∀ i signedAt claims, (i, .signed signedAt claims) ∈ s.journal → claims.sessionId = sessionId →
    claims.expiry ≤ expiry

/-- When no use case is in progress, every session stored as revoked is on the list until every
token signed for it has expired. -/
def ReachesTokens (P : SessionPool) : Prop :=
  P.Quiescent → ∀ sessionId, P.store.Revoked sessionId →
    ∃ expiry, P.store.revokedUntilBySessionId.get? sessionId = some expiry ∧
      P.store.Covers sessionId expiry

/-! ## The law of reach -/

/-- A session stored as revoked is on the list or was stored so by a thread that will put it
there; who is on the list is there for long enough; and tokens are signed for the lifetime of the
policy. -/
structure Reach (expiryPolicy : SessionExpiryPolicy) (s : SessionStore) : Prop where
  answered : ∀ sessionId, s.Revoked sessionId →
    s.Listed sessionId ∨ ∃ i, (i, SessionDeed.revoked sessionId) ∈ s.journal
  covers : ∀ sessionId expiry, s.revokedUntilBySessionId.get? sessionId = some expiry →
    s.Covers sessionId expiry
  lifetime : ∀ i signedAt claims, (i, .signed signedAt claims) ∈ s.journal →
    claims.exp = signedAt / 1000 + expiryPolicy.accessTokenTtlSeconds

/-- The law of reach. -/
def reach (expiryPolicy : SessionExpiryPolicy) : SessionLaw where
  inv := Reach expiryPolicy
  rel _ _ := True
  rel_refl _ := trivial
  rel_trans _ _ _ _ _ := trivial

variable {D : SessionDeployment} {expiryPolicy : SessionExpiryPolicy} {i : ℕ} {s u : SessionStore}

/-- What neither revokes nor signs nor writes to the list leaves the law as it was. -/
theorem Reach.of_eq (h : Reach expiryPolicy s) (hsessions : u.sessionsById = s.sessionsById)
    (hlist : u.revokedUntilBySessionId = s.revokedUntilBySessionId)
    (hrevoked : ∀ j sessionId, (j, SessionDeed.revoked sessionId) ∈ s.journal →
      (j, SessionDeed.revoked sessionId) ∈ u.journal)
    (hsigned : ∀ j signedAt claims, (j, SessionDeed.signed signedAt claims) ∈ u.journal →
      (j, SessionDeed.signed signedAt claims) ∈ s.journal) : Reach expiryPolicy u where
  answered sessionId hid := by
    have hbefore : s.Revoked sessionId := by simpa [SessionStore.Revoked, hsessions] using hid
    rcases h.answered sessionId hbefore with hl | ⟨j, hj⟩
    · exact .inl (by simpa [SessionStore.Listed, hlist] using hl)
    · exact .inr ⟨j, hrevoked j sessionId hj⟩
  covers sessionId expiry hexpiry j signedAt claims hj :=
    h.covers sessionId expiry (hlist ▸ hexpiry) j signedAt claims (hsigned j signedAt claims hj)
  lifetime j signedAt claims hj := h.lifetime j signedAt claims (hsigned j signedAt claims hj)

/-- A session that is saved as revoked is one its thread has to answer for. -/
theorem Reach.save (h : Reach expiryPolicy s) (session : Session) :
    Reach expiryPolicy (s.save i session) where
  answered sessionId hid := by
    obtain ⟨stored, hstored, hrevoked⟩ := hid
    rw [SessionStore.sessionsById_save, KeyedMap.get?_put] at hstored
    split at hstored
    · rename_i hsame
      subst hsame
      obtain rfl : session = stored := Option.some.inj hstored
      exact .inr ⟨i, (SessionStore.mem_journal_save s i).mpr (.inl ⟨hrevoked, rfl⟩)⟩
    · rcases h.answered sessionId ⟨stored, hstored, hrevoked⟩ with hl | ⟨j, hj⟩
      · exact .inl (by simpa [SessionStore.Listed] using hl)
      · exact .inr ⟨j, (SessionStore.mem_journal_save s i).mpr (.inr hj)⟩
  covers sessionId expiry hexpiry j signedAt claims hj := by
    refine h.covers sessionId expiry (by simpa using hexpiry) j signedAt claims ?_
    simpa [SessionStore.mem_journal_save] using hj
  lifetime j signedAt claims hj :=
    h.lifetime j signedAt claims (by simpa [SessionStore.mem_journal_save] using hj)

/-- A bulk revocation of sessions its thread has put on the list. -/
theorem Reach.revokeAllForUser (h : Reach expiryPolicy s) (hwf : s.WellFormed) {userId : String}
    {now : ℤ} {ω : SessionInput}
    (hreaches : reachesEveryToken expiryPolicy i s (.revokeAllForUser userId now) ω = true) :
    Reach expiryPolicy (s.revokeAllForUser userId now) where
  answered sessionId hid := by
    obtain ⟨stored, hstored, hrevoked⟩ := hid
    rw [SessionStore.get?_revokeAllForUser, Option.map_eq_some_iff] at hstored
    obtain ⟨before, hbefore, rfl⟩ := hstored
    have hmem : before ∈ s.sessionsById.values := KeyedMap.mem_values_of_get? hbefore
    have hkey : before.id = sessionId := KeyedMap.key_of_get? hbefore
    have hcond := List.all_eq_true.mp hreaches before hmem
    simp only [Bool.or_eq_true, Bool.not_eq_true', decide_eq_false_iff_not,
      decide_eq_true_eq] at hcond
    rcases hcond with (hother | hbefore_revoked) | hdenied
    · rw [if_neg hother] at hrevoked
      exact h.answered sessionId ⟨before, hbefore, hrevoked⟩
    · exact h.answered sessionId ⟨before, hbefore, hbefore_revoked⟩
    · exact .inl (hkey ▸ hwf.listed_of_denied i before.id hdenied)
  covers := h.covers
  lifetime := h.lifetime

/-- A token signed before a window was computed expires within it: the window is at least as long
as a token lives. -/
theorem expiry_le_of_isWindowReading (hday : expiryPolicy.accessTokenTtlMs ≤ 24 * 60 * 60 * 1000)
    {signedAt expiry : ℤ} {claims : AccessTokenClaims}
    (hlifetime : claims.exp = signedAt / 1000 + expiryPolicy.accessTokenTtlSeconds)
    {p : ℕ × SessionDeed} (hp : isWindowReading expiryPolicy i signedAt expiry p = true) :
    claims.expiry ≤ expiry := by
  obtain ⟨j, deed⟩ := p
  cases deed with
  | readClock now =>
    simp only [isWindowReading, endsOwnWindow, Bool.and_eq_true, decide_eq_true_eq] at hp
    obtain ⟨⟨-, hsigned⟩, hend⟩ := hp
    rw [AccessTokenClaims.expiry, hlifetime, SessionExpiryPolicy.accessTokenTtlSeconds]
    rcases hend with hend | hend
    · omega
    · rw [DEFAULT_REVOCATION_WINDOW_MS] at hend
      omega
  | _ => simp [isWindowReading] at hp

/-- A write to the list of a window that is long enough. -/
theorem Reach.deny (hday : expiryPolicy.accessTokenTtlMs ≤ 24 * 60 * 60 * 1000)
    (h : Reach expiryPolicy s) {sessionId : String} {expiry : ℤ} {ω : SessionInput}
    (hreaches : reachesEveryToken expiryPolicy i s (.revoke sessionId expiry) ω = true) :
    Reach expiryPolicy (s.deny i sessionId expiry) where
  answered other hid := by
    rcases h.answered other hid with hl | ⟨j, hj⟩
    · exact .inl (SessionStore.listed_deny.mpr (.inr hl))
    · exact .inr ⟨j, List.mem_cons_of_mem _ hj⟩
  covers other expiry' hexpiry j signedAt claims hj hclaims := by
    have hj' : (j, SessionDeed.signed signedAt claims) ∈ s.journal := by simpa using hj
    rw [SessionStore.revokedUntilBySessionId_deny, OrderedMap.get?_set] at hexpiry
    split at hexpiry
    · rename_i hsame
      obtain rfl : expiry = expiry' := Option.some.inj hexpiry
      have hcond := List.all_eq_true.mp hreaches _ hj'
      simp only [expiresWithin, Bool.or_eq_true, Bool.not_eq_true', decide_eq_false_iff_not,
        decide_eq_true_eq, List.any_eq_true] at hcond
      rcases hcond with (hother | hexpires) | ⟨p, -, hp⟩
      · exact absurd (hclaims.trans hsame.symm) hother
      · exact hexpires
      · exact expiry_le_of_isWindowReading hday (h.lifetime j signedAt claims hj') hp
    · exact h.covers other expiry' hexpiry j signedAt claims hj' hclaims
  lifetime j signedAt claims hj := h.lifetime j signedAt claims (by simpa using hj)

/-- A token that is signed for the lifetime of the policy, and expires with the window if its
session is on the list. -/
theorem Reach.sign (h : Reach D.expiryPolicy s) {payload : AccessTokenPayload} {ttlSeconds t : ℤ}
    (hjust : Justified D i s (.sign payload ttlSeconds))
    (hreaches : reachesEveryToken D.expiryPolicy i s (.sign payload ttlSeconds) (.time t) = true) :
    Reach D.expiryPolicy (s.note i (.signed t (claimsAt payload ttlSeconds t))) where
  answered sessionId hid := by
    rcases h.answered sessionId hid with hl | ⟨j, hj⟩
    · exact .inl hl
    · exact .inr ⟨j, List.mem_cons_of_mem _ hj⟩
  covers sessionId expiry hexpiry j signedAt claims hj hclaims := by
    rcases List.mem_cons.mp hj with hj | hj
    · cases hj
      subst hclaims
      have hlisted : s.revokedUntilBySessionId.get? payload.sessionId = some expiry := hexpiry
      simpa [reachesEveryToken, hlisted] using hreaches
    · exact h.covers sessionId expiry hexpiry j signedAt claims hj hclaims
  lifetime j signedAt claims hj := by
    rcases List.mem_cons.mp hj with hj | hj
    · cases hj
      exact congrArg (t / 1000 + ·) hjust
    · exact h.lifetime j signedAt claims hj

/-- With access tokens that live for a day at most, justified calls that meet the condition keep
the law. -/
theorem keptBy_reach (hday : D.expiryPolicy.accessTokenTtlMs ≤ 24 * 60 * 60 * 1000) :
    KeptBy D (reach D.expiryPolicy) (ReachesEveryToken D.expiryPolicy) := by
  intro i s q ω r u hwf hinv hjust hreaches hserve
  refine ⟨?_, trivial⟩
  rcases serve_cases hserve with huntouched | ⟨refreshToken, rfl, rfl⟩ | ⟨session, rfl, rfl⟩ |
    ⟨userId, now, rfl, rfl⟩ | ⟨sessionId, expiry, rfl, rfl⟩ |
    ⟨payload, ttlSeconds, t, rfl, rfl, rfl⟩
  · exact hinv.of_eq huntouched.sessionsById huntouched.revokedUntilBySessionId
      (fun j sessionId => (huntouched.deeds j (.revoked sessionId) trivial).mpr)
      fun j signedAt claims => (huntouched.deeds j (.signed signedAt claims) trivial).mp
  · refine hinv.of_eq (SessionStore.sessionsById_saveRefreshToken s i refreshToken)
      (SessionStore.revokedUntilBySessionId_saveRefreshToken s i refreshToken)
      (fun j sessionId hj => ?_) fun j signedAt claims hj => ?_
    · exact (SessionStore.mem_journal_saveRefreshToken s i).mpr (.inr hj)
    · simpa [SessionStore.mem_journal_saveRefreshToken] using hj
  · exact Reach.save hinv session
  · exact Reach.revokeAllForUser hinv hwf hreaches
  · exact Reach.deny hday hinv hreaches
  · exact Reach.sign hinv hjust hreaches

/-! ## Runs -/

/-- A second session is opened while the user is logged out everywhere. -/
def sampleLateLogin : SessionSchedule :=
  sampleOpening ++
    [.start 1 (.logoutEverywhere ⟨sampleUserId⟩), .answer 1 (.time sampleRefreshedAt),
      .answer 1 .served,
      .answer 1 (.order [.open sampleSessionId sampleUserId .default ⟨none, none⟩ sampleOpenedAt]),
      .answer 1 .served] ++
    openingOf 2 sampleOtherSessionId sampleNextToken "9118bb16-000f-49c8-9a35-8ca00d75985d"
      sampleRefreshedAt ++
    [.answer 1 .served]

/-- What that ends in. -/
def sampleLateLoggedIn : SessionPool :=
  (exec sampleDeployment.step (Pool.initial SessionStore.empty) sampleLateLogin).get
    (by decide +kernel)

/-- A refresh is followed by a logout from everywhere. -/
def sampleLogoutEverywhere : SessionSchedule :=
  sampleOpening ++ readingOf 1 ++
    rotationOf 1 sampleNextToken "9118bb16-000f-49c8-9a35-8ca00d75985d" ++
    [.start 2 (.logoutEverywhere ⟨sampleUserId⟩), .answer 2 (.time sampleRefreshedAt),
      .answer 2 .served,
      .answer 2 (.order [(Session.open sampleSessionId sampleUserId .default ⟨none, none⟩
        sampleOpenedAt).touch sampleRefreshedAt]),
      .answer 2 .served, .answer 2 .served]

/-- What that ends in. -/
def sampleLoggedOutEverywhere : SessionPool :=
  (execWhile sampleDeployment.step (fun P e => P.Allows (ReachesEveryToken .default) e)
    (Pool.initial SessionStore.empty) sampleLogoutEverywhere).get (by decide +kernel)

end Verixa
