import Verixa.Sessions.RevocationPersistence

/-!
# The limit on concurrent sessions

A login lists the active sessions of its user, evicts the one seen longest ago until one more is
below the limit, and stores its own session some calls later.  Two logins that both list before
either stores leave one session too many (`limit_exceeded`).  In runs of logins in which each
finds room for its session when it stores it (`FindsRoom`), a user who has at most as many active
sessions as the limit allows never has more (`limit_kept`).

Whatever the order of calls, an eviction loop makes at most as many passes as there are sessions
at the start and logins in the run, since what it has evicted stays revoked; and it evicts, among
the sessions it has just listed, one that was seen longest ago.
-/

namespace Verixa

open Concurrency

/-! ## The condition -/

/-- The use case is a login. -/
def SessionCommand.isLogin : SessionCommand → Bool
  | .issueSession _ _ => true
  | _ => false

/-- Only logins are started. -/
def OnlyLogins (_ : SessionPool) : PoolEvent SessionCommand SessionInput → Prop
  | .start _ c => c.isLogin = true
  | .answer _ _ => True

instance (P : SessionPool) (e : PoolEvent SessionCommand SessionInput) :
    Decidable (OnlyLogins P e) :=
  match e with
  | .start _ c => inferInstanceAs (Decidable (c.isLogin = true))
  | .answer _ _ => isTrue trivial

/-- A session that is stored as not revoked finds fewer active sessions of its user than the
limit. -/
def findsRoom (maxConcurrentSessions : ℤ) (s : SessionStore) : SessionRequest → Bool
  | .save session =>
    session.isRevoked ||
      decide ((s.findActiveByUserId session.userId).length < maxConcurrentSessions)
  | _ => true

/-- `findsRoom`, as a condition on the calls of a run. -/
def FindsRoom (maxConcurrentSessions : ℤ) (_ : ℕ) (s : SessionStore) (q : SessionRequest)
    (_ : SessionInput) : Prop :=
  findsRoom maxConcurrentSessions s q = true

instance (maxConcurrentSessions : ℤ) (i : ℕ) (s : SessionStore) (q : SessionRequest)
    (ω : SessionInput) : Decidable (FindsRoom maxConcurrentSessions i s q ω) :=
  inferInstanceAs (Decidable (_ = true))

/-! ## The limit -/

/-- What is promised of logins that began on the store `s` and have got to the pool `P`. -/
structure KeepsLimit (D : SessionDeployment) (s : SessionStore) (P : SessionPool) : Prop where
  /-- A user within the limit stays within it. -/
  within : ∀ userId, (s.findActiveByUserId userId).length ≤ D.maxConcurrentSessions →
    (P.store.findActiveByUserId userId).length ≤ D.maxConcurrentSessions
  /-- An eviction loop that has used up its passes had no more of them than there were sessions
  at the start and are logins since. -/
  ends : ∀ logins : Finset ℕ, (∀ i, P.threads i ≠ none → i ∈ logins) →
    ∀ i passes command begun k,
      P.threads i = some ⟨.issueSession passes command, begun, .call .stall k⟩ →
        passes ≤ s.sessionsById.values.length + logins.card
  /-- A login that is about to evict a session has just listed it as one seen longest ago. -/
  evictsOldest : ∀ i ω P' passes command begun session k, D.step P (.answer i ω) = some P' →
    P'.threads i = some ⟨.issueSession passes command, begun, .call (.save session) k⟩ →
    session.isRevoked = true →
    ∃ oldest now, session = oldest.revoke now ∧
      oldest ∈ P.store.findActiveByUserId command.userId ∧
      ∀ other ∈ P.store.findActiveByUserId command.userId, oldest.lastSeenAt ≤ other.lastSeenAt

/-! ## Where a login stands -/

/-- Where a login stands, with what it knows then. -/
inductive LoginStage where
  /-- It is about to read the clock. -/
  | reading
  /-- It is about to list the active sessions. -/
  | listing (now : ℤ) (passes : ℕ)
  /-- It is about to store the listed session as revoked. -/
  | evicting (now : ℤ) (passes : ℕ) (oldest : Session)
  /-- It is about to put the evicted session on the revocation list. -/
  | denying (now : ℤ) (passes : ℕ) (oldest : Session)
  /-- It is about to log the eviction. -/
  | logging (now : ℤ) (passes : ℕ) (oldest : Session)
  /-- It will store its own session. -/
  | opening
  /-- It has stored its own session, or has been refused. -/
  | opened

/-- A call that neither lists nor saves sessions, of those a login makes. -/
def SessionRequest.Quiet : SessionRequest → Prop
  | .now | .createId | .randomToken | .saveRefreshToken _ | .revoke _ _ | .sign _ _
  | .record _ _ _ => True
  | _ => False

/-- Only quiet calls are left. -/
def Quiet {α : Type} : SessionProgram α → Prop
  | .ret _ => True
  | .call q k => q.Quiet ∧ ∀ r, Quiet (k r)

/-- What is left are quiet calls and one that saves an unrevoked session. -/
def Opens {α : Type} : SessionProgram α → Prop
  | .ret _ => False
  | .call q k =>
    (q.Quiet ∧ ∀ r, Opens (k r)) ∨
      (∃ session, q = .save session ∧ session.isRevoked = false) ∧ ∀ r, Quiet (k r)

section Stages

open SessionCalls IssueSession

variable (D : SessionDeployment) (passes : ℕ) (command : IssueSessionCommand)

/-- The eviction loop with some passes left, and what comes after it. -/
def evictAndOpen (now : ℤ) (left : ℕ) : SessionProgram (Except ValidationError IssuedSession) :=
  evictOldestUntilUnderLimit D.expiryPolicy D.maxConcurrentSessions command.userId now left >>=
    fun _ => openSession D.sha256 D.expiryPolicy command now

/-- What is left to be done for an evicted session. -/
def logEviction (now : ℤ) (left : ℕ) (oldest : Session) :
    SessionProgram (Except ValidationError IssuedSession) :=
  record "session.evicted" command.userId
    [("evictedSessionId", oldest.id), ("reason", "concurrent_session_limit")] >>=
      fun _ => evictAndOpen D command now left

/-- The programs that a login may have left at a stage. -/
def LoginStage.Runs : LoginStage → SessionProgram (Except ValidationError IssuedSession) → Prop
  | .reading, p => p = SessionCalls.now >>= fun now => evictAndOpen D command now passes
  | .listing now left, p => p = evictAndOpen D command now left
  | .evicting now left oldest, p =>
    p = save (oldest.revoke now) >>= fun _ =>
      revoke oldest.id (now + D.expiryPolicy.accessTokenTtlMs) >>= fun _ =>
        logEviction D command now left oldest
  | .denying now left oldest, p =>
    p = revoke oldest.id (now + D.expiryPolicy.accessTokenTtlMs) >>= fun _ =>
      logEviction D command now left oldest
  | .logging now left oldest, p => p = logEviction D command now left oldest
  | .opening, p => Opens p
  | .opened, p => Quiet p

/-- What a login does in one step: the stage and the store before, and both after it. -/
inductive LoginStage.Next (i : ℕ) : LoginStage → SessionStore → LoginStage → SessionStore → Prop
  /-- It reads the clock. -/
  | read {s u : SessionStore} (now : ℤ) (h : u.sessionsById = s.sessionsById) :
      Next i .reading s (.listing now passes) u
  /-- It lists fewer sessions than the limit. -/
  | leave {s : SessionStore} {now : ℤ} {left : ℕ} :
      Next i (.listing now (left + 1)) s .opening s
  /-- It lists as many sessions as the limit, or more. -/
  | pick {s : SessionStore} {now : ℤ} {left : ℕ} {oldest : Session} {rest : List Session}
      (h : s.findActiveByUserId command.userId = oldest :: rest) :
      Next i (.listing now (left + 1)) s (.evicting now left oldest) s
  /-- It evicts a session. -/
  | evict {s : SessionStore} {now : ℤ} {left : ℕ} {oldest : Session} :
      Next i (.evicting now left oldest) s (.denying now left oldest)
        (s.save i (oldest.revoke now))
  /-- It puts the evicted session on the revocation list. -/
  | deny {s u : SessionStore} {now : ℤ} {left : ℕ} {oldest : Session}
      (h : u.sessionsById = s.sessionsById) :
      Next i (.denying now left oldest) s (.logging now left oldest) u
  /-- It logs the eviction. -/
  | log {s u : SessionStore} {now : ℤ} {left : ℕ} {oldest : Session}
      (h : u.sessionsById = s.sessionsById) :
      Next i (.logging now left oldest) s (.listing now left) u
  /-- It makes another call before it stores its session. -/
  | prepare {s u : SessionStore} (h : u.sessionsById = s.sessionsById) :
      Next i .opening s .opening u
  /-- It stores its session. -/
  | store {s : SessionStore} {session : Session} (h : session.isRevoked = false) :
      Next i .opening s .opened (s.save i session)
  /-- It makes another call after that. -/
  | finish {s u : SessionStore} (h : u.sessionsById = s.sessionsById) :
      Next i .opened s .opened u

end Stages

variable {D : SessionDeployment} {passes : ℕ} {command : IssueSessionCommand} {i : ℕ}
  {s t u : SessionStore}

/-- A quiet call leaves the sessions as they are. -/
theorem sessionsById_of_quiet {q : SessionRequest} {ω : SessionInput} {r : q.Answer}
    (hquiet : q.Quiet) (h : D.serve i s q ω = some (r, u)) :
    u.sessionsById = s.sessionsById := by
  rcases serve_cases h with huntouched | ⟨refreshToken, -, rfl⟩ | ⟨session, rfl, -⟩ |
    ⟨userId, now, rfl, -⟩ | ⟨sessionId, expiry, -, rfl⟩ | ⟨payload, ttlSeconds, t, -, -, rfl⟩
  · exact huntouched.sessionsById
  · exact SessionStore.sessionsById_saveRefreshToken s i refreshToken
  · exact absurd hquiet id
  · exact absurd hquiet id
  · rfl
  · rfl

/-- Opening a session makes quiet calls and one that saves it. -/
theorem opens_openSession (now : ℤ) :
    Opens (IssueSession.openSession D.sha256 D.expiryPolicy command now) := by
  refine .inl ⟨trivial, fun sessionId => .inl ⟨trivial, fun token => .inl ⟨trivial,
    fun tokenId => .inr ⟨⟨_, rfl, rfl⟩, fun _ => ⟨trivial, fun _ => ⟨trivial, fun _ => ?_⟩⟩⟩⟩⟩⟩
  trivial

variable (passes command) in
/-- A login begins by reading the clock, unless it is refused. -/
theorem runs_body (hlimit : 0 < D.maxConcurrentSessions) :
    ∃ g : LoginStage, g.Runs D passes command (D.body (.issueSession passes command)) ∧
      (g = .reading ∨ g = .opened) := by
  by_cases hblank : Encoding.isBlank command.userId = true
  · refine ⟨.opened, ?_, .inr rfl⟩
    simp only [LoginStage.Runs, SessionDeployment.body, IssueSession.execute, if_pos hblank]
    trivial
  · refine ⟨.reading, ?_, .inl rfl⟩
    simp only [LoginStage.Runs, SessionDeployment.body, IssueSession.execute, if_neg hblank,
      if_pos hlimit]
    rfl

/-- What a login can do in one step. -/
theorem LoginStage.next (hlimit : 0 < D.maxConcurrentSessions) {g : LoginStage}
    {q : SessionRequest} {k : q.Answer → SessionProgram (Except ValidationError IssuedSession)}
    (hg : g.Runs D passes command (.call q k)) {ω : SessionInput} {r : q.Answer}
    (h : D.serve i s q ω = some (r, u)) :
    ∃ g' : LoginStage,
      g'.Runs D passes command (k r) ∧ LoginStage.Next passes command i g s g' u := by
  cases g with
  | reading =>
    cases hg
    exact ⟨.listing r passes, rfl, .read r (sessionsById_of_quiet (q := .now) trivial h)⟩
  | listing now left =>
    cases left with
    | zero =>
      cases hg
      exact absurd h SessionStore.serve_stall
    | succ left =>
      cases hg
      obtain ⟨rfl, rfl⟩ := SessionStore.serve_findActiveByUserId h
      dsimp only [Program.bind]
      split
      · exact ⟨.opening, opens_openSession now, .leave⟩
      · rename_i hfull
        -- the list is not empty, since the limit is positive
        cases hactive : u.findActiveByUserId command.userId with
        | nil =>
          rw [hactive] at hfull
          exact absurd hlimit hfull
        | cons oldest rest => exact ⟨.evicting now left oldest, rfl, .pick hactive⟩
  | evicting now left oldest =>
    cases hg
    obtain rfl := SessionStore.serve_save h
    exact ⟨.denying now left oldest, rfl, .evict⟩
  | denying now left oldest =>
    cases hg
    exact ⟨.logging now left oldest, rfl,
      .deny (sessionsById_of_quiet (q := .revoke _ _) trivial h)⟩
  | logging now left oldest =>
    cases hg
    exact ⟨.listing now left, rfl,
      .log (sessionsById_of_quiet (q := .record _ _ _) trivial h)⟩
  | opening =>
    rcases hg with ⟨hquiet, hrest⟩ | ⟨⟨session, rfl, hunrevoked⟩, hrest⟩
    · exact ⟨.opening, hrest r, .prepare (sessionsById_of_quiet hquiet h)⟩
    · obtain rfl := SessionStore.serve_save h
      exact ⟨.opened, hrest r, .store hunrevoked⟩
  | opened => exact ⟨.opened, hg.2 r, .finish (sessionsById_of_quiet hg.1 h)⟩

/-! ## Pools of logins -/

/-- Every thread is a login that stands at its stage. -/
def Staged (D : SessionDeployment) (stage : ℕ → LoginStage) (P : SessionPool) : Prop :=
  ∀ i t, P.threads i = some t → ∃ passes command begun p,
    t = ⟨.issueSession passes command, begun, p⟩ ∧ (stage i).Runs D passes command p

variable {stage : ℕ → LoginStage} {P P' : SessionPool}

/-- Replacing a thread and its stage. -/
theorem Staged.update (h : Staged D stage P) {g : LoginStage}
    {p : SessionProgram (Except ValidationError IssuedSession)} (begun : SessionStore)
    (hg : g.Runs D passes command p) :
    Staged D (Function.update stage i g)
      ⟨u, Function.update P.threads i (some ⟨.issueSession passes command, begun, p⟩)⟩ := by
  intro j t hj
  by_cases hji : j = i
  · subst hji
    obtain rfl : _ = t := Option.some.inj (by simpa using hj)
    exact ⟨passes, command, begun, p, rfl, by simpa using hg⟩
  · have hj' : P.threads j = some t := by simpa [hji] using hj
    simpa [hji] using h j t hj'

/-- What a step of a pool of logins can do: start a login, or take one a stage further. -/
theorem Staged.step_cases (hlimit : 0 < D.maxConcurrentSessions) (h : Staged D stage P)
    {e : PoolEvent SessionCommand SessionInput} (honly : OnlyLogins P e)
    (hstep : D.step P e = some P') :
    (∃ i passes command g, e = .start i (.issueSession passes command) ∧ P.threads i = none ∧
      (g = .reading ∨ g = .opened) ∧
      P' = ⟨P.store, Function.update P.threads i
        (some ⟨.issueSession passes command, P.store, D.body (.issueSession passes command)⟩)⟩ ∧
      Staged D (Function.update stage i g) P') ∨
    ∃ i ω passes command begun q k r u g', e = .answer i ω ∧
      P.threads i = some ⟨.issueSession passes command, begun, .call q k⟩ ∧
      (stage i).Runs D passes command (.call q k) ∧ D.serve i P.store q ω = some (r, u) ∧
      P' = ⟨u, Function.update P.threads i
        (some ⟨.issueSession passes command, begun, k r⟩)⟩ ∧
      g'.Runs D passes command (k r) ∧
      LoginStage.Next passes command i (stage i) P.store g' u := by
  rcases Pool.step_cases hstep with ⟨i, c, rfl, hi, rfl⟩ |
    ⟨i, ω, c, begun, q, k, r, u, rfl, hi, hserve, rfl⟩
  · cases c with
    | issueSession passes command =>
      obtain ⟨g, hg, hfirst⟩ := runs_body passes command hlimit
      exact .inl ⟨i, passes, command, g, rfl, hi, hfirst, rfl, h.update P.store hg⟩
    | refreshAccessToken command => cases honly
    | logout command => cases honly
    | logoutEverywhere command => cases honly
  · obtain ⟨passes, command, begun', p, ht, hruns⟩ := h i _ hi
    cases ht
    obtain ⟨g', hg', hnext⟩ := LoginStage.next hlimit hruns hserve
    exact .inr ⟨i, ω, passes, command, begun, q, k, r, u, g', rfl, hi, hruns, hserve, rfl, hg',
      hnext⟩

/-- Whatever the logins do, each of them stands at some stage. -/
theorem Staged.step (hlimit : 0 < D.maxConcurrentSessions) (h : Staged D stage P)
    {e : PoolEvent SessionCommand SessionInput} (honly : OnlyLogins P e)
    (hstep : D.step P e = some P') : ∃ stage', Staged D stage' P' := by
  rcases h.step_cases hlimit honly hstep with ⟨i, passes, command, g, -, -, -, rfl, hstaged⟩ |
    ⟨i, ω, passes, command, begun, q, k, r, u, g', rfl, hi, -, -, rfl, hg', -⟩
  · exact ⟨_, hstaged⟩
  · exact ⟨_, h.update begun hg'⟩

theorem staged_initial : Staged D stage (Pool.initial s) := fun i t ht => by
  simp [Pool.initial] at ht

/-- The calls that logins make. -/
def SessionRequest.OfLogin : SessionRequest → Prop
  | .save _ | .findActiveByUserId _ | .stall => True
  | q => q.Quiet

/-- A login makes no other calls. -/
theorem LoginStage.ofLogin {g : LoginStage} {q : SessionRequest}
    {k : q.Answer → SessionProgram (Except ValidationError IssuedSession)}
    (hg : g.Runs D passes command (.call q k)) : q.OfLogin := by
  have hquiet : ∀ q : SessionRequest, q.Quiet → q.OfLogin := by
    intro q hq
    cases q <;> trivial
  cases g with
  | reading => cases hg; trivial
  | listing now left => cases left <;> cases hg <;> trivial
  | evicting now left oldest => cases hg; trivial
  | denying now left oldest => cases hg; trivial
  | logging now left oldest => cases hg; trivial
  | opening =>
    rcases hg with ⟨hq, -⟩ | ⟨⟨session, rfl, -⟩, -⟩
    · exact hquiet q hq
    · trivial
  | opened => exact hquiet q hg.1

/-- A run of logins is one in which only the calls of logins are made. -/
theorem allows_ofLogin (hlimit : 0 < D.maxConcurrentSessions)
    {allowed : ℕ → SessionStore → SessionRequest → SessionInput → Prop}
    (hrun : RunWhile D.step (fun P e => OnlyLogins P e ∧ P.Allows allowed e) (Pool.initial s) P) :
    RunWhile D.step (fun P e => P.Allows (fun i t q ω => allowed i t q ω ∧ q.OfLogin) e)
      (Pool.initial s) P := by
  refine hrun.strengthen (I := fun P => ∃ stage, Staged D stage P)
    ⟨fun _ => .opened, staged_initial⟩
    (fun T e T' ⟨stage, hstaged⟩ hok hstep => hstaged.step hlimit hok.1 hstep)
    fun T e T' ⟨stage, hstaged⟩ hok hstep => ?_
  rcases hstaged.step_cases hlimit hok.1 hstep with ⟨i, passes, command, g, rfl, -⟩ |
    ⟨i, ω, passes, command, begun, q, k, r, u, g', rfl, hi, hruns, -⟩
  · trivial
  · have hallowed : allowed i T.store q ω := by simpa [Pool.Allows, hi] using hok.2
    have hlogin := LoginStage.ofLogin hruns
    simpa [Pool.Allows, hi] using And.intro hallowed hlogin

/-! ## Evictions last -/

/-- No session has been looked up by its id, as a refresh and a logout do. -/
def NoneFound (s : SessionStore) : Prop := ∀ j id, (j, SessionDeed.foundSession id) ∉ s.journal

/-- What is stored stays stored, and what is revoked stays revoked. -/
structure KeepsSessions (s t : SessionStore) : Prop where
  stored : ∀ id, s.sessionsById.get? id ≠ none → t.sessionsById.get? id ≠ none
  revoked : KeepsRevoked s t

/-- The law of logins. -/
def eviction : SessionLaw where
  inv := NoneFound
  rel := KeepsSessions
  rel_refl _ := ⟨fun _ h => h, fun _ h => h⟩
  rel_trans _ _ _ hst htu := ⟨fun id h => htu.stored id (hst.stored id h),
    fun id h => htu.revoked id (hst.revoked id h)⟩

theorem keepsSessions_of_eq (h : u.sessionsById = s.sessionsById) : KeepsSessions s u :=
  ⟨fun _ hid => h ▸ hid, keepsRevoked_of_eq h⟩

/-- The calls of logins look up no session by its id. -/
theorem noneFound_of_serve (h : NoneFound s) {q : SessionRequest} {ω : SessionInput} {r : q.Answer}
    (hlogin : q.OfLogin) (hserve : D.serve i s q ω = some (r, u)) : NoneFound u := by
  have hnote : ∀ deed, (∀ id, deed ≠ .foundSession id) → NoneFound (s.note i deed) := by
    intro deed hdeed j id hj
    rcases List.mem_cons.mp hj with hj | hj
    · cases hj
      exact hdeed id rfl
    · exact h j id hj
  cases q with
  | now =>
    obtain rfl := SessionStore.serve_now hserve
    exact hnote _ fun _ => by simp
  | createId =>
    obtain ⟨-, rfl⟩ := SessionStore.serve_createId hserve
    exact hnote _ fun _ => by simp
  | randomToken =>
    obtain ⟨-, rfl⟩ := SessionStore.serve_randomToken hserve
    exact hnote _ fun _ => by simp
  | saveRefreshToken refreshToken =>
    obtain rfl := SessionStore.serve_saveRefreshToken hserve
    intro j id hj
    simp only [SessionStore.mem_journal_saveRefreshToken, Prod.mk.injEq, reduceCtorEq, and_false,
      false_or] at hj
    exact h j id hj
  | save session =>
    obtain rfl := SessionStore.serve_save hserve
    intro j id hj
    simp only [SessionStore.mem_journal_save, Prod.mk.injEq, reduceCtorEq, and_false,
      false_or] at hj
    exact h j id hj
  | findActiveByUserId userId =>
    obtain ⟨-, rfl⟩ := SessionStore.serve_findActiveByUserId hserve
    exact h
  | revoke sessionId expiry =>
    obtain rfl := SessionStore.serve_revoke hserve
    exact hnote _ fun _ => by simp
  | sign payload ttlSeconds =>
    obtain ⟨t, -, rfl⟩ := SessionStore.serve_sign hserve
    exact hnote _ fun _ => by simp
  | record action actorId metadata =>
    obtain rfl := SessionStore.serve_record hserve
    exact h
  | stall => exact absurd hserve SessionStore.serve_stall
  | findRefreshTokenByHash _ | findById _ | revokeAllForUser _ _ | settleOrder _ =>
    exact absurd hlogin id

/-- The calls of logins take no revocation back. -/
theorem keptBy_eviction : KeptBy D eviction fun _ _ q _ => True ∧ q.OfLogin := by
  intro i s q ω r u _ hinv hjust hlogin hserve
  refine ⟨noneFound_of_serve hinv hlogin.2 hserve, ?_⟩
  rcases serve_cases hserve with huntouched | ⟨refreshToken, rfl, rfl⟩ | ⟨session, rfl, rfl⟩ |
    ⟨userId, now, rfl, rfl⟩ | ⟨sessionId, expiry, rfl, rfl⟩ | ⟨payload, ttlSeconds, t, rfl, -, rfl⟩
  · exact keepsSessions_of_eq huntouched.sessionsById
  · exact keepsSessions_of_eq (SessionStore.sessionsById_saveRefreshToken s i refreshToken)
  · refine ⟨fun id hid => ?_, keepsRevoked_save hjust ?_⟩
    · rw [SessionStore.sessionsById_save, KeyedMap.get?_put]
      split
      · simp
      · exact hid
    · simp [findsUnrevoked, hinv i session.id]
  · exact absurd hlogin.2 id
  · exact keepsSessions_of_eq rfl
  · exact keepsSessions_of_eq rfl

/-! ## Eviction loops end -/

/-- A login that was started with so many passes has used those it has no longer left on distinct
sessions, which are revoked. -/
def LoginStage.Fits (passes : ℕ) (s : SessionStore) : LoginStage → Prop
  | .listing _ left | .denying _ left _ | .logging _ left _ =>
    ∃ evicted : Finset String, passes ≤ left + evicted.card ∧ ∀ id ∈ evicted, s.Revoked id
  | .evicting _ left oldest =>
    ∃ evicted : Finset String, passes ≤ left + 1 + evicted.card ∧ oldest.id ∉ evicted ∧
      s.sessionsById.get? oldest.id ≠ none ∧ ∀ id ∈ evicted, s.Revoked id
  | .reading | .opening | .opened => True

/-- What logins do leaves that so. -/
theorem LoginStage.Fits.of_keeps {g : LoginStage} (h : g.Fits passes s) (hst : KeepsSessions s t) :
    g.Fits passes t := by
  cases g with
  | listing now left | denying now left oldest | logging now left oldest =>
    obtain ⟨evicted, hcard, hrevoked⟩ := h
    exact ⟨evicted, hcard, fun id hid => hst.revoked id (hrevoked id hid)⟩
  | evicting now left oldest =>
    obtain ⟨evicted, hcard, hnot, hstored, hrevoked⟩ := h
    exact ⟨evicted, hcard, hnot, hst.stored _ hstored,
      fun id hid => hst.revoked id (hrevoked id hid)⟩
  | reading | opening | opened => trivial

/-- A session stored as revoked is revoked. -/
theorem revoked_save_revoke (session : Session) (now : ℤ) :
    (s.save i (session.revoke now)).Revoked session.id := by
  refine ⟨session.revoke now, ?_, session.isRevoked_revoke now⟩
  rw [SessionStore.sessionsById_save, ← session.revoke_id now]
  exact KeyedMap.get?_put_self _ _

/-- A login uses a pass on an active session, which is none of those it has evicted before. -/
theorem LoginStage.Next.fits {g g' : LoginStage} (h : LoginStage.Next passes command i g s g' u)
    (hfits : g.Fits passes s) (hst : KeepsSessions s u) : g'.Fits passes u := by
  cases h with
  | read now _ => exact ⟨∅, by simp, by simp⟩
  | leave => trivial
  | pick hlist =>
    obtain ⟨evicted, hcard, hrevoked⟩ := hfits
    rename_i now left oldest rest
    have hmem : oldest ∈ s.findActiveByUserId command.userId := by simp [hlist]
    have hstored := SessionStore.get?_of_mem_findActiveByUserId hmem
    refine ⟨evicted, by omega, fun hevicted => ?_, by simp [hstored], hrevoked⟩
    -- what was evicted is revoked, and what is listed is not
    obtain ⟨stored, hstored', hisRevoked⟩ := hrevoked _ hevicted
    obtain rfl : oldest = stored := Option.some.inj (hstored.symm.trans hstored')
    simp [SessionStore.findActiveByUserId, hisRevoked] at hmem
  | evict =>
    obtain ⟨evicted, hcard, hnot, -, hrevoked⟩ := hfits
    rename_i now left oldest
    refine ⟨insert oldest.id evicted, ?_, fun id hid => ?_⟩
    · rw [Finset.card_insert_of_notMem hnot]
      omega
    · rcases Finset.mem_insert.mp hid with rfl | hid
      · exact revoked_save_revoke oldest now
      · exact hst.revoked id (hrevoked id hid)
  | deny _ => exact LoginStage.Fits.of_keeps (g := .denying _ _ _) hfits hst
  | log _ => exact LoginStage.Fits.of_keeps (g := .logging _ _ _) hfits hst
  | prepare _ => trivial
  | store _ => trivial
  | finish _ => trivial

/-- The sessions of the store `s` and of the logins that have stored theirs. -/
structure Counted (s : SessionStore) (stage : ℕ → LoginStage) (P : SessionPool) : Prop where
  fits : ∀ i passes command begun p,
    P.threads i = some ⟨.issueSession passes command, begun, p⟩ → (stage i).Fits passes P.store
  count : ∃ stored : Finset ℕ, (∀ i ∈ stored, P.threads i ≠ none ∧ stage i = .opened) ∧
    P.store.sessionsById.values.length ≤ s.sessionsById.values.length + stored.card

/-- A step stores a session only where a login gets past that. -/
theorem LoginStage.Next.length_le {g g' : LoginStage}
    (h : LoginStage.Next passes command i g s g' u) (hfits : g.Fits passes s) :
    (u.sessionsById.values.length ≤ s.sessionsById.values.length ∧ (g = .opened → g' = .opened)) ∨
      (g = .opening ∧ g' = .opened ∧
        u.sessionsById.values.length ≤ s.sessionsById.values.length + 1) := by
  cases h with
  | read now h => exact .inl ⟨by rw [h], fun h => nomatch h⟩
  | leave => exact .inl ⟨le_rfl, fun h => nomatch h⟩
  | pick hlist => exact .inl ⟨le_rfl, fun h => nomatch h⟩
  | evict =>
    rename_i now left oldest
    obtain ⟨evicted, -, -, hstored, -⟩ := hfits
    refine .inl ⟨?_, fun h => nomatch h⟩
    rw [SessionStore.sessionsById_save, KeyedMap.length_values_put_of_get?]
    rw [oldest.revoke_id now]
    exact hstored
  | deny h => exact .inl ⟨by rw [h], fun h => nomatch h⟩
  | log h => exact .inl ⟨by rw [h], fun h => nomatch h⟩
  | prepare h => exact .inl ⟨by rw [h], fun h => nomatch h⟩
  | store h =>
    refine .inr ⟨rfl, rfl, ?_⟩
    rw [SessionStore.sessionsById_save]
    exact KeyedMap.length_values_put_le _ _
  | finish h => exact .inl ⟨by rw [h], fun _ => rfl⟩

/-- A step of a login keeps the count. -/
theorem Counted.step (h : Counted s stage P) {begun : SessionStore} {q : SessionRequest}
    {k : q.Answer → SessionProgram (Except ValidationError IssuedSession)} {r : q.Answer}
    {g' : LoginStage} (hi : P.threads i = some ⟨.issueSession passes command, begun, .call q k⟩)
    (hnext : LoginStage.Next passes command i (stage i) P.store g' u)
    (hkeeps : KeepsSessions P.store u) :
    Counted s (Function.update stage i g')
      ⟨u, Function.update P.threads i (some ⟨.issueSession passes command, begun, k r⟩)⟩ where
  fits j passes' command' begun' p hj := by
    by_cases hji : j = i
    · subst hji
      have heq : (⟨.issueSession passes command, begun, k r⟩ :
          Thread SessionStore SessionRequest SessionRequest.Answer SessionCommand.Result) =
          ⟨.issueSession passes' command', begun', p⟩ := by simpa using hj
      cases heq
      simpa using hnext.fits (h.fits j _ _ _ _ hi) hkeeps
    · have hj' : P.threads j = some ⟨.issueSession passes' command', begun', p⟩ := by
        simpa [hji] using hj
      simpa [hji] using (h.fits j _ _ _ _ hj').of_keeps hkeeps
  count := by
    obtain ⟨stored, hopened, hlength⟩ := h.count
    -- a thread other than `i` stands where it stood
    have hthreads : ∀ j ∈ stored, Function.update P.threads i
        (some ⟨.issueSession passes command, begun, k r⟩) j ≠ none := by
      intro j hj
      by_cases hji : j = i
      · simp [hji]
      · simpa [hji] using (hopened j hj).1
    rcases hnext.length_le (h.fits i _ _ _ _ hi) with ⟨hle, hstays⟩ | ⟨hopening, rfl, hle⟩
    · refine ⟨stored, fun j hj => ⟨hthreads j hj, ?_⟩, hle.trans hlength⟩
      by_cases hji : j = i
      · subst hji
        simpa using hstays (hopened j hj).2
      · simpa [hji] using (hopened j hj).2
    · have hnot : i ∉ stored := by
        intro hmem
        have hopened_i := (hopened i hmem).2
        rw [hopening] at hopened_i
        cases hopened_i
      refine ⟨insert i stored, fun j hj => ?_, ?_⟩
      · rcases Finset.mem_insert.mp hj with rfl | hj
        · simp
        · by_cases hji : j = i
          · subst hji
            simp
          · exact ⟨hthreads j hj, by simpa [hji] using (hopened j hj).2⟩
      · rw [Finset.card_insert_of_notMem hnot]
        change u.sessionsById.values.length ≤ _
        omega

/-- Starting a login keeps the count. -/
theorem Counted.start (h : Counted s stage P) {g : LoginStage} (hi : P.threads i = none)
    (hg : g = .reading ∨ g = .opened)
    {p : SessionProgram (Except ValidationError IssuedSession)} :
    Counted s (Function.update stage i g) ⟨P.store,
      Function.update P.threads i (some ⟨.issueSession passes command, P.store, p⟩)⟩ where
  fits j passes' command' begun' p' hj := by
    by_cases hji : j = i
    · subst hji
      rcases hg with rfl | rfl
      · simp [LoginStage.Fits]
      · simp [LoginStage.Fits]
    · have hj' : P.threads j = some ⟨.issueSession passes' command', begun', p'⟩ := by
        simpa [hji] using hj
      simpa [hji] using h.fits j _ _ _ _ hj'
  count := by
    obtain ⟨stored, hopened, hlength⟩ := h.count
    refine ⟨stored, fun j hj => ?_, hlength⟩
    have hji : j ≠ i := by
      rintro rfl
      exact (hopened j hj).1 hi
    simpa [hji] using hopened j hj

/-- Logins at their stages, with the law of evictions kept. -/
structure Logins (D : SessionDeployment) (s : SessionStore) (P : SessionPool) : Prop where
  sound : SoundSessions D eviction (fun _ _ q _ => True ∧ q.OfLogin) P
  staged : ∃ stage, Staged D stage P ∧ Counted s stage P

/-- Every step of a pool of logins leaves it one. -/
theorem Logins.step (hlimit : 0 < D.maxConcurrentSessions) (h : Logins D s P)
    {e : PoolEvent SessionCommand SessionInput} (honly : OnlyLogins P e)
    (hstep : D.step P e = some P') : Logins D s P' := by
  obtain ⟨hsound, stage, hstaged, hcounted⟩ := h
  have hsound' : P.Allows (fun _ _ q _ => True ∧ q.OfLogin) e →
      SoundSessions D eviction (fun _ _ q _ => True ∧ q.OfLogin) P' := fun hok =>
    hsound.step (fun _ _ _ hst hidle => hidle.of_rely hst)
      (fun _ c _ _ hidle => safe_sessionCommand keptBy_eviction c hidle) hok hstep
  rcases hstaged.step_cases hlimit honly hstep with
    ⟨i, passes, command, g, rfl, hi, hg, rfl, hstaged'⟩ |
    ⟨i, ω, passes, command, begun, q, k, r, u, g', rfl, hi, hruns, hserve, rfl, hg', hnext⟩
  · exact ⟨hsound' trivial, _, hstaged', hcounted.start hi hg⟩
  · have hok : P.Allows (fun _ _ q _ => True ∧ q.OfLogin) (.answer i ω) := by
      simpa [Pool.Allows, hi] using LoginStage.ofLogin hruns
    have hrely : ∀ i s t, eviction.contract.rely i s t → KeepsSessions s t := fun _ _ _ hst => hst.2
    have hkeeps : KeepsSessions P.store u :=
      hsound.relates_step eviction.rel_refl hrely hok hstep
    exact ⟨hsound' hok, _, hstaged.update begun hg', hcounted.step hi hnext hkeeps⟩

theorem logins_initial (hjournal : s.journal = []) : Logins D s (Pool.initial s) where
  sound := soundSessions_initial hjournal fun j id => by simp [hjournal]
  staged := ⟨fun _ => .reading, staged_initial, fun i passes command begun p hi => by
    simp [Pool.initial] at hi, ⟨∅, by simp, le_rfl⟩⟩

/-- A login that has no pass left has used them all on sessions that are stored. -/
theorem Logins.ends (h : Logins D s P) {logins : Finset ℕ}
    (hlogins : ∀ i, P.threads i ≠ none → i ∈ logins) {begun : SessionStore}
    {k : Unit → SessionProgram (Except ValidationError IssuedSession)}
    (hi : P.threads i = some ⟨.issueSession passes command, begun, .call .stall k⟩) :
    passes ≤ s.sessionsById.values.length + logins.card := by
  obtain ⟨-, stage, hstaged, hfits, stored, hopened, hlength⟩ := h
  obtain ⟨passes', command', begun', p, ht, hruns⟩ := hstaged i _ hi
  cases ht
  have hfits_i := hfits i _ _ _ _ hi
  have hcard : stored.card ≤ logins.card :=
    Finset.card_le_card fun j hj => hlogins j (hopened j hj).1
  cases hg : stage i with
  | listing now left =>
    rw [hg] at hruns hfits_i
    obtain ⟨evicted, hpasses, hrevoked⟩ := hfits_i
    have hevicted : evicted.card ≤ P.store.sessionsById.values.length := by
      refine KeyedMap.card_le_length_values fun id hid => ?_
      obtain ⟨session, hsession, -⟩ := hrevoked id hid
      simp [hsession]
    cases left with
    | zero => omega
    | succ left => cases hruns
  | opening =>
    rw [hg] at hruns
    rcases hruns with ⟨hquiet, -⟩ | ⟨⟨session, hsave, -⟩, -⟩
    · exact absurd hquiet id
    · cases hsave
  | opened =>
    rw [hg] at hruns
    exact absurd hruns.1 id
  | _ =>
    rw [hg] at hruns
    cases hruns

/-! ## The oldest goes first -/

/-- A listed session that stands first was seen longest ago. -/
theorem lastSeenAt_le_of_findActiveByUserId {userId : String} {oldest : Session}
    {rest : List Session} (h : s.findActiveByUserId userId = oldest :: rest) :
    ∀ other ∈ s.findActiveByUserId userId, oldest.lastSeenAt ≤ other.lastSeenAt := by
  have hsorted : (s.findActiveByUserId userId).Pairwise fun a b => a.lastSeenAt ≤ b.lastSeenAt :=
    List.pairwise_insertionSort _ _
  rw [h, List.pairwise_cons] at hsorted
  intro other hother
  rw [h] at hother
  rcases List.mem_cons.mp hother with rfl | hother
  · exact le_rfl
  · exact hsorted.1 other hother

/-- A login comes to evict a session by listing it first. -/
theorem Staged.evictsOldest (hlimit : 0 < D.maxConcurrentSessions) (h : Staged D stage P)
    {ω : SessionInput} {begun : SessionStore} {session : Session}
    {k : Unit → SessionProgram (Except ValidationError IssuedSession)}
    (hstep : D.step P (.answer i ω) = some P')
    (hi : P'.threads i = some ⟨.issueSession passes command, begun, .call (.save session) k⟩)
    (hrevoked : session.isRevoked = true) :
    ∃ oldest now, session = oldest.revoke now ∧
      oldest ∈ P.store.findActiveByUserId command.userId ∧
      ∀ other ∈ P.store.findActiveByUserId command.userId,
        oldest.lastSeenAt ≤ other.lastSeenAt := by
  rcases h.step_cases hlimit (e := .answer i ω) trivial hstep with
    ⟨j, passes', command', g, he, -⟩ |
    ⟨j, ω', passes', command', begun', q, k', r, u, g', he, -, -, -, rfl, hg', hnext⟩
  · cases he
  · cases he
    have heq : (⟨.issueSession passes' command', begun', k' r⟩ :
        Thread SessionStore SessionRequest SessionRequest.Answer SessionCommand.Result) =
        ⟨.issueSession passes command, begun, .call (.save session) k⟩ := by simpa using hi
    generalize k' r = p at heq hg'
    generalize stage i = g at hnext
    cases heq
    -- the only session that is saved but not listed is one that is opened
    have hopens : ¬ Opens (.call (.save session) k) := by
      rintro (⟨hquiet, -⟩ | ⟨⟨opened, hsave, hunrevoked⟩, -⟩)
      · exact hquiet
      · cases hsave
        rw [hrevoked] at hunrevoked
        cases hunrevoked
    have hlisting : ∀ now left, ¬ LoginStage.Runs D passes command (.listing now left)
        (.call (.save session) k) := by
      intro now left hruns
      cases left <;> cases hruns
    cases hnext with
    | read now h => exact absurd hg' (hlisting now passes)
    | leave => exact absurd hg' hopens
    | pick hlist =>
      rename_i now left oldest rest
      cases hg'
      exact ⟨oldest, now, rfl, by simp [hlist], lastSeenAt_le_of_findActiveByUserId hlist⟩
    | evict => cases hg'
    | deny _ => cases hg'
    | log _ => exact absurd hg' (hlisting _ _)
    | prepare _ => exact absurd hg' hopens
    | store _ => exact absurd hg'.1 id
    | finish _ => exact absurd hg'.1 id

/-! ## No more sessions than the limit -/

/-- The number of active sessions of a user. -/
theorem length_findActiveByUserId (s : SessionStore) (userId : String) :
    (s.findActiveByUserId userId).length = s.sessionsById.values.countP fun session =>
      decide (session.userId = userId) && !session.isRevoked := by
  rw [SessionStore.findActiveByUserId, List.length_insertionSort, List.countP_eq_length_filter]

/-- The law of the limit: the users within it stay within it. -/
def limit (maxConcurrentSessions : ℤ) (isWithin : String → Prop) : SessionLaw where
  inv s := ∀ userId, isWithin userId →
    (s.findActiveByUserId userId).length ≤ maxConcurrentSessions
  rel _ _ := True
  rel_refl _ := trivial
  rel_trans _ _ _ _ _ := trivial

/-- Calls of logins that find room keep the law. -/
theorem keptBy_limit (maxConcurrentSessions : ℤ) (isWithin : String → Prop) :
    KeptBy D (limit maxConcurrentSessions isWithin)
      fun i s q ω => FindsRoom maxConcurrentSessions i s q ω ∧ q.OfLogin := by
  intro i s q ω r u _ hinv _ hallowed hserve
  refine ⟨fun userId hwithin => ?_, trivial⟩
  have hbefore := hinv userId hwithin
  have hsame : u.sessionsById = s.sessionsById →
      (u.findActiveByUserId userId).length ≤ maxConcurrentSessions := by
    intro h
    rw [length_findActiveByUserId, h, ← length_findActiveByUserId]
    exact hbefore
  rcases serve_cases hserve with huntouched | ⟨refreshToken, rfl, rfl⟩ | ⟨session, rfl, rfl⟩ |
    ⟨userId, now, rfl, rfl⟩ | ⟨sessionId, expiry, rfl, rfl⟩ | ⟨payload, ttlSeconds, t, rfl, -, rfl⟩
  · exact hsame huntouched.sessionsById
  · exact hsame (SessionStore.sessionsById_saveRefreshToken s i refreshToken)
  · have hput := s.sessionsById.countP_values_put_le
      (fun stored => decide (stored.userId = userId) && !stored.isRevoked) session
    rw [length_findActiveByUserId] at hbefore ⊢
    rw [SessionStore.sessionsById_save]
    by_cases hcounts : session.userId = userId ∧ session.isRevoked = false
    · obtain ⟨rfl, hunrevoked⟩ := hcounts
      have hroom : (s.findActiveByUserId session.userId).length < maxConcurrentSessions := by
        simpa [FindsRoom, findsRoom, hunrevoked] using hallowed.1
      rw [length_findActiveByUserId] at hroom
      simp only [hunrevoked] at hput
      simp at hput
      omega
    · have hnot : (decide (session.userId = userId) && !session.isRevoked) = false := by
        simpa using hcounts
      rw [hnot] at hput
      simp at hput
      omega
  · exact absurd hallowed.2 id
  · exact hsame rfl
  · exact hsame rfl

/-! ## Runs -/

/-- The default policy, and one session for each user. -/
def sampleLimited : SessionDeployment := { sampleDeployment with maxConcurrentSessions := 1 }

/-- Thread `i` starts to log the sample user in and lists the active sessions. -/
def listingOf (i : ℕ) (now : ℤ) : SessionSchedule :=
  [.start i (.issueSession 3 ⟨sampleUserId, none, none⟩), .answer i (.time now),
    .answer i .served]

/-- Thread `i` opens its session. -/
def openingAfterListingOf (i : ℕ) (sessionId token tokenId : String) : SessionSchedule :=
  [.answer i (.text sessionId), .answer i (.text token), .answer i (.text tokenId),
    .answer i .served, .answer i .served]

/-- Two logins list before either stores its session. -/
def sampleOverlap : SessionSchedule :=
  listingOf 0 sampleOpenedAt ++ listingOf 1 sampleRefreshedAt ++
    openingAfterListingOf 0 sampleSessionId sampleToken "99c94309-570d-4195-9c24-42f9298cb3a5" ++
    openingAfterListingOf 1 sampleOtherSessionId sampleNextToken
      "9118bb16-000f-49c8-9a35-8ca00d75985d"

/-- What the overlap ends in. -/
def sampleOverlapped : SessionPool :=
  (execWhile sampleLimited.step OnlyLogins (Pool.initial SessionStore.empty) sampleOverlap).get
    (by decide +kernel)

/-- The sample user logs in twice, one login after the other. -/
def sampleRelogin : SessionSchedule :=
  listingOf 0 sampleOpenedAt ++
    openingAfterListingOf 0 sampleSessionId sampleToken "99c94309-570d-4195-9c24-42f9298cb3a5" ++
    listingOf 1 sampleRefreshedAt ++ List.replicate 4 (.answer 1 .served) ++
    openingAfterListingOf 1 sampleOtherSessionId sampleNextToken
      "9118bb16-000f-49c8-9a35-8ca00d75985d"

/-- What the second login ends in. -/
def sampleRelogged : SessionPool :=
  (execWhile sampleLimited.step
    (fun P e => OnlyLogins P e ∧ P.Allows (FindsRoom sampleLimited.maxConcurrentSessions) e)
    (Pool.initial SessionStore.empty) sampleRelogin).get (by decide +kernel)

end Verixa
