import Mathlib.Data.List.Sort
import Verixa.Collections.KeyedMap
import Verixa.Concurrency.Program
import Verixa.Sessions.Session

/-!
# The session store and the calls made to it

The use cases of this context work on an in-memory session repository, a revocation list, an
audit logger and a token signer.  Here is what they hold together, the calls a use case makes and
how each is answered.  Reading the clock and drawing random values are calls too: an id or a
token that is drawn is one that nobody has drawn or stored before.

The store also keeps a journal of what each call has done.  Only the check that drawn values are
new reads it; it is there for what is said about runs.
-/

namespace Verixa

open Concurrency

/-- The claims an access token carries. -/
structure AccessTokenPayload where
  sessionId : String
  userId : String
  deriving DecidableEq

/-- The payload of a signed access token; `iat` and `exp` are seconds since the epoch. -/
structure AccessTokenClaims extends AccessTokenPayload where
  iat : ℤ
  exp : ℤ
  deriving DecidableEq

/-- The claims that are signed at a moment. -/
def claimsAt (payload : AccessTokenPayload) (ttlSeconds signedAt : ℤ) : AccessTokenClaims :=
  { payload with
    iat := signedAt / 1000
    exp := signedAt / 1000 + ttlSeconds }

/-- The first moment at which a token is no longer accepted. -/
def AccessTokenClaims.expiry (claims : AccessTokenClaims) : ℤ := claims.exp * 1000

/-- One recorded call of the audit logger. -/
structure RecordedSessionAuditEntry where
  action : String
  actorId : String
  metadata : List (String × String)
  deriving DecidableEq

/-- Something a call has done. -/
inductive SessionDeed where
  | drewId (id : String)
  | drewToken (tokenHash : String)
  | readClock (time : ℤ)
  | foundSession (sessionId : String)
  | redeemed (tokenHash : String)
  | revoked (sessionId : String)
  | denied (sessionId : String)
  | signed (signedAt : ℤ) (claims : AccessTokenClaims)
  deriving DecidableEq

instance : LawfulBEq (ℕ × SessionDeed) := inferInstance

/-- What the use cases work on: the maps of the repository and of the revocation list, what was
logged, and the journal. -/
structure SessionStore where
  sessionsById : KeyedMap Session.id
  refreshTokensByHash : KeyedMap RefreshToken.tokenHash
  revokedUntilBySessionId : OrderedMap String ℤ
  auditEntries : List RecordedSessionAuditEntry
  journal : List (ℕ × SessionDeed)

/-! ## Calls -/

/-- A call made by a use case.  `settleOrder` asks in which order the calls that `Promise.all`
waits for take effect, and `stall` never returns. -/
inductive SessionRequest where
  | now
  | createId
  | randomToken
  | findRefreshTokenByHash (tokenHash : String)
  | saveRefreshToken (refreshToken : RefreshToken)
  | findById (id : String)
  | save (session : Session)
  | findActiveByUserId (userId : String)
  | revokeAllForUser (userId : String) (now : ℤ)
  | revoke (sessionId : String) (expiry : ℤ)
  | sign (payload : AccessTokenPayload) (ttlSeconds : ℤ)
  | record (action actorId : String) (metadata : List (String × String))
  | settleOrder (sessions : List Session)
  | stall
  deriving DecidableEq

/-- What a call is answered with. -/
def SessionRequest.Answer : SessionRequest → Type
  | .now => ℤ
  | .createId | .randomToken | .sign _ _ => String
  | .findRefreshTokenByHash _ => Option RefreshToken
  | .findById _ => Option Session
  | .findActiveByUserId _ | .settleOrder _ => List Session
  | .saveRefreshToken _ | .save _ | .revokeAllForUser _ _ | .revoke _ _ | .record _ _ _ | .stall =>
    Unit

/-- A program over these calls. -/
abbrev SessionProgram := Program SessionRequest SessionRequest.Answer

/-- What the outside adds to a call: a clock reading, a random text or an order. -/
inductive SessionInput where
  | served
  | time (t : ℤ)
  | text (value : String)
  | order (sessions : List Session)
  deriving DecidableEq

namespace SessionStore

/-- The store in which nobody has done anything. -/
def empty : SessionStore := ⟨KeyedMap.empty, KeyedMap.empty, OrderedMap.empty, [], []⟩

/-- Add a deed to the journal. -/
def note (s : SessionStore) (i : ℕ) (deed : SessionDeed) : SessionStore :=
  { s with journal := (i, deed) :: s.journal }

/-- Nobody has drawn the id, and no session has it. -/
def FreshId (s : SessionStore) (id : String) : Prop :=
  s.sessionsById.get? id = none ∧ ∀ p ∈ s.journal, p.2 ≠ .drewId id

/-- Nobody has drawn a token with the hash, and none is stored. -/
def FreshToken (s : SessionStore) (tokenHash : String) : Prop :=
  s.refreshTokensByHash.get? tokenHash = none ∧ ∀ p ∈ s.journal, p.2 ≠ .drewToken tokenHash

instance (s : SessionStore) (id : String) : Decidable (s.FreshId id) :=
  inferInstanceAs (Decidable (_ ∧ _))

instance (s : SessionStore) (tokenHash : String) : Decidable (s.FreshToken tokenHash) :=
  inferInstanceAs (Decidable (_ ∧ _))

/-- `InMemorySessionRepository.save`. -/
def save (s : SessionStore) (i : ℕ) (session : Session) : SessionStore :=
  let stored := { s with sessionsById := s.sessionsById.put session }
  if session.isRevoked then stored.note i (.revoked session.id) else stored

/-- `InMemorySessionRepository.findActiveByUserId`: not revoked, seen longest ago first. -/
def findActiveByUserId (s : SessionStore) (userId : String) : List Session :=
  (s.sessionsById.values.filter fun session =>
    decide (session.userId = userId) && !session.isRevoked).insertionSort
      fun a b => a.lastSeenAt ≤ b.lastSeenAt

/-- `InMemorySessionRepository.revokeAllForUser`. -/
def revokeAllForUser (s : SessionStore) (userId : String) (now : ℤ) : SessionStore :=
  { s with
    sessionsById := s.sessionsById.mapValues
      (fun session => if session.userId = userId then session.revoke now else session)
      fun session => by
        split
        · exact session.revoke_id now
        · rfl }

/-- `InMemorySessionRepository.saveRefreshToken`. -/
def saveRefreshToken (s : SessionStore) (i : ℕ) (refreshToken : RefreshToken) : SessionStore :=
  let stored := { s with refreshTokensByHash := s.refreshTokensByHash.put refreshToken }
  if refreshToken.isUsed then stored.note i (.redeemed refreshToken.tokenHash) else stored

/-- `InMemoryRevocationList.revoke`. -/
def deny (s : SessionStore) (i : ℕ) (sessionId : String) (expiry : ℤ) : SessionStore :=
  { s with revokedUntilBySessionId := s.revokedUntilBySessionId.set sessionId expiry }.note i
    (.denied sessionId)

/-- `InMemorySessionAuditLogger.record`. -/
def record (s : SessionStore) (entry : RecordedSessionAuditEntry) : SessionStore :=
  { s with auditEntries := s.auditEntries ++ [entry] }

section Serve

variable (sha256 : String → String) (jwt : AccessTokenClaims → String)

/-- How a call of thread `i` is answered; `jwt` is the text of signed claims. -/
def serve : Server SessionStore SessionInput SessionRequest SessionRequest.Answer
  | i, s, .now, .time t => some (t, s.note i (.readClock t))
  | i, s, .createId, .text id =>
    if s.FreshId id then some (id, s.note i (.drewId id)) else none
  | i, s, .randomToken, .text token =>
    if s.FreshToken (RefreshToken.hashToken sha256 token) then
      some (token, s.note i (.drewToken (RefreshToken.hashToken sha256 token)))
    else none
  | _, s, .findRefreshTokenByHash tokenHash, .served =>
    some (s.refreshTokensByHash.get? tokenHash, s)
  | i, s, .saveRefreshToken refreshToken, .served => some ((), s.saveRefreshToken i refreshToken)
  | i, s, .findById id, .served => some (s.sessionsById.get? id, s.note i (.foundSession id))
  | i, s, .save session, .served => some ((), s.save i session)
  | _, s, .findActiveByUserId userId, .served => some (s.findActiveByUserId userId, s)
  | _, s, .revokeAllForUser userId now, .served => some ((), s.revokeAllForUser userId now)
  | i, s, .revoke sessionId expiry, .served => some ((), s.deny i sessionId expiry)
  | i, s, .sign payload ttlSeconds, .time t =>
    let claims := claimsAt payload ttlSeconds t
    some (jwt claims, s.note i (.signed t claims))
  | _, s, .record action actorId metadata, .served =>
    some ((), s.record ⟨action, actorId, metadata⟩)
  | _, s, .settleOrder sessions, .order settled =>
    if settled.Perm sessions then some (settled, s) else none
  | _, _, _, _ => none

end Serve

/-! ## What is stored -/

/-- The session is stored as revoked. -/
def Revoked (s : SessionStore) (sessionId : String) : Prop :=
  ∃ session, s.sessionsById.get? sessionId = some session ∧ session.isRevoked = true

instance (s : SessionStore) (sessionId : String) : Decidable (s.Revoked sessionId) :=
  decidable_of_iff ((s.sessionsById.get? sessionId).any Session.isRevoked = true)
    (Option.any_eq_true _ _)

/-- The session is on the revocation list. -/
def Listed (s : SessionStore) (sessionId : String) : Prop :=
  ∃ expiry, s.revokedUntilBySessionId.get? sessionId = some expiry

/-! ## What an operation leaves behind -/

section Operations

variable (s : SessionStore) (i : ℕ)

@[simp] theorem sessionsById_note (deed : SessionDeed) :
    (s.note i deed).sessionsById = s.sessionsById := rfl

@[simp] theorem refreshTokensByHash_note (deed : SessionDeed) :
    (s.note i deed).refreshTokensByHash = s.refreshTokensByHash := rfl

@[simp] theorem revokedUntilBySessionId_note (deed : SessionDeed) :
    (s.note i deed).revokedUntilBySessionId = s.revokedUntilBySessionId := rfl

@[simp] theorem journal_note (deed : SessionDeed) :
    (s.note i deed).journal = (i, deed) :: s.journal := rfl

@[simp] theorem sessionsById_save (session : Session) :
    (s.save i session).sessionsById = s.sessionsById.put session := by
  unfold save
  split <;> rfl

@[simp] theorem refreshTokensByHash_save (session : Session) :
    (s.save i session).refreshTokensByHash = s.refreshTokensByHash := by
  unfold save
  split <;> rfl

@[simp] theorem revokedUntilBySessionId_save (session : Session) :
    (s.save i session).revokedUntilBySessionId = s.revokedUntilBySessionId := by
  unfold save
  split <;> rfl

/-- Storing a revoked session is a deed. -/
theorem mem_journal_save {session : Session} {p : ℕ × SessionDeed} :
    p ∈ (s.save i session).journal ↔
      (session.isRevoked = true ∧ p = (i, .revoked session.id)) ∨ p ∈ s.journal := by
  unfold save
  split
  · rename_i h
    simp [h]
  · rename_i h
    simp [h]

@[simp] theorem sessionsById_saveRefreshToken (refreshToken : RefreshToken) :
    (s.saveRefreshToken i refreshToken).sessionsById = s.sessionsById := by
  unfold saveRefreshToken
  split <;> rfl

@[simp] theorem refreshTokensByHash_saveRefreshToken (refreshToken : RefreshToken) :
    (s.saveRefreshToken i refreshToken).refreshTokensByHash =
      s.refreshTokensByHash.put refreshToken := by
  unfold saveRefreshToken
  split <;> rfl

@[simp] theorem revokedUntilBySessionId_saveRefreshToken (refreshToken : RefreshToken) :
    (s.saveRefreshToken i refreshToken).revokedUntilBySessionId = s.revokedUntilBySessionId := by
  unfold saveRefreshToken
  split <;> rfl

/-- Storing a used token is a deed. -/
theorem mem_journal_saveRefreshToken {refreshToken : RefreshToken} {p : ℕ × SessionDeed} :
    p ∈ (s.saveRefreshToken i refreshToken).journal ↔
      (refreshToken.isUsed = true ∧ p = (i, .redeemed refreshToken.tokenHash)) ∨
        p ∈ s.journal := by
  unfold saveRefreshToken
  split
  · rename_i h
    simp [h]
  · rename_i h
    simp [h]

@[simp] theorem sessionsById_deny (sessionId : String) (expiry : ℤ) :
    (s.deny i sessionId expiry).sessionsById = s.sessionsById := rfl

@[simp] theorem refreshTokensByHash_deny (sessionId : String) (expiry : ℤ) :
    (s.deny i sessionId expiry).refreshTokensByHash = s.refreshTokensByHash := rfl

@[simp] theorem revokedUntilBySessionId_deny (sessionId : String) (expiry : ℤ) :
    (s.deny i sessionId expiry).revokedUntilBySessionId =
      s.revokedUntilBySessionId.set sessionId expiry := rfl

@[simp] theorem journal_deny (sessionId : String) (expiry : ℤ) :
    (s.deny i sessionId expiry).journal = (i, .denied sessionId) :: s.journal := rfl

@[simp] theorem refreshTokensByHash_revokeAllForUser (userId : String) (now : ℤ) :
    (s.revokeAllForUser userId now).refreshTokensByHash = s.refreshTokensByHash := rfl

@[simp] theorem revokedUntilBySessionId_revokeAllForUser (userId : String) (now : ℤ) :
    (s.revokeAllForUser userId now).revokedUntilBySessionId = s.revokedUntilBySessionId := rfl

@[simp] theorem journal_revokeAllForUser (userId : String) (now : ℤ) :
    (s.revokeAllForUser userId now).journal = s.journal := rfl

/-- Bulk revocation revokes what the user has stored, and nothing else. -/
theorem get?_revokeAllForUser (userId : String) (now : ℤ) (id : String) :
    (s.revokeAllForUser userId now).sessionsById.get? id =
      (s.sessionsById.get? id).map fun session =>
        if session.userId = userId then session.revoke now else session := by
  rw [revokeAllForUser, KeyedMap.get?_mapValues]

/-- An active session of the user is stored under its id. -/
theorem get?_of_mem_findActiveByUserId {s : SessionStore} {userId : String} {session : Session}
    (h : session ∈ s.findActiveByUserId userId) :
    s.sessionsById.get? session.id = some session := by
  rw [findActiveByUserId, List.mem_insertionSort, List.mem_filter] at h
  exact KeyedMap.get?_of_mem_values h.1

/-- A session is on the list after a write if it was before or is the one written. -/
theorem listed_deny {s : SessionStore} {i : ℕ} {sessionId other : String} {expiry : ℤ} :
    (s.deny i sessionId expiry).Listed other ↔ sessionId = other ∨ s.Listed other := by
  simp only [Listed, revokedUntilBySessionId_deny, OrderedMap.get?_set]
  by_cases h : sessionId = other <;> simp [h]

end Operations

/-! ## How calls are answered -/

section Serve

variable {sha256 : String → String} {jwt : AccessTokenClaims → String} {i : ℕ}
  {s u : SessionStore} {ω : SessionInput}

theorem serve_now {t : ℤ} (h : s.serve sha256 jwt i .now ω = some (t, u)) :
    u = s.note i (.readClock t) := by
  cases ω <;> cases h
  rfl

/-- An id that is drawn is new. -/
theorem serve_createId {id : String} (h : s.serve sha256 jwt i .createId ω = some (id, u)) :
    s.FreshId id ∧ u = s.note i (.drewId id) := by
  cases ω with
  | text value =>
    simp only [serve] at h
    split at h
    · rename_i hfresh
      cases h
      exact ⟨hfresh, rfl⟩
    · cases h
  | _ => cases h

/-- A token that is drawn is new. -/
theorem serve_randomToken {token : String}
    (h : s.serve sha256 jwt i .randomToken ω = some (token, u)) :
    s.FreshToken (RefreshToken.hashToken sha256 token) ∧
      u = s.note i (.drewToken (RefreshToken.hashToken sha256 token)) := by
  cases ω with
  | text value =>
    simp only [serve] at h
    split at h
    · rename_i hfresh
      cases h
      exact ⟨hfresh, rfl⟩
    · cases h
  | _ => cases h

theorem serve_findRefreshTokenByHash {tokenHash : String} {answer : Option RefreshToken}
    (h : s.serve sha256 jwt i (.findRefreshTokenByHash tokenHash) ω = some (answer, u)) :
    answer = s.refreshTokensByHash.get? tokenHash ∧ u = s := by
  cases ω <;> cases h
  exact ⟨rfl, rfl⟩

theorem serve_saveRefreshToken {refreshToken : RefreshToken} {answer : Unit}
    (h : s.serve sha256 jwt i (.saveRefreshToken refreshToken) ω = some (answer, u)) :
    u = s.saveRefreshToken i refreshToken := by
  cases ω <;> cases h
  rfl

theorem serve_findById {id : String} {answer : Option Session}
    (h : s.serve sha256 jwt i (.findById id) ω = some (answer, u)) :
    answer = s.sessionsById.get? id ∧ u = s.note i (.foundSession id) := by
  cases ω <;> cases h
  exact ⟨rfl, rfl⟩

theorem serve_save {session : Session} {answer : Unit}
    (h : s.serve sha256 jwt i (.save session) ω = some (answer, u)) : u = s.save i session := by
  cases ω <;> cases h
  rfl

theorem serve_findActiveByUserId {userId : String} {answer : List Session}
    (h : s.serve sha256 jwt i (.findActiveByUserId userId) ω = some (answer, u)) :
    answer = s.findActiveByUserId userId ∧ u = s := by
  cases ω <;> cases h
  exact ⟨rfl, rfl⟩

theorem serve_revokeAllForUser {userId : String} {now : ℤ} {answer : Unit}
    (h : s.serve sha256 jwt i (.revokeAllForUser userId now) ω = some (answer, u)) :
    u = s.revokeAllForUser userId now := by
  cases ω <;> cases h
  rfl

theorem serve_revoke {sessionId : String} {expiry : ℤ} {answer : Unit}
    (h : s.serve sha256 jwt i (.revoke sessionId expiry) ω = some (answer, u)) :
    u = s.deny i sessionId expiry := by
  cases ω <;> cases h
  rfl

/-- What is signed carries the moment of signing. -/
theorem serve_sign {payload : AccessTokenPayload} {ttlSeconds : ℤ} {answer : String}
    (h : s.serve sha256 jwt i (.sign payload ttlSeconds) ω = some (answer, u)) :
    ∃ t, ω = .time t ∧ u = s.note i (.signed t (claimsAt payload ttlSeconds t)) := by
  cases ω with
  | time t =>
    cases h
    exact ⟨t, rfl, rfl⟩
  | _ => cases h

theorem serve_record {action actorId : String} {metadata : List (String × String)} {answer : Unit}
    (h : s.serve sha256 jwt i (.record action actorId metadata) ω = some (answer, u)) :
    u = s.record ⟨action, actorId, metadata⟩ := by
  cases ω <;> cases h
  rfl

theorem serve_settleOrder {sessions answer : List Session}
    (h : s.serve sha256 jwt i (.settleOrder sessions) ω = some (answer, u)) :
    answer.Perm sessions ∧ u = s := by
  cases ω with
  | order settled =>
    simp only [serve] at h
    split at h
    · rename_i hperm
      cases h
      exact ⟨hperm, rfl⟩
    · cases h
  | _ => cases h

theorem serve_stall {answer : Unit} : s.serve sha256 jwt i .stall ω ≠ some (answer, u) := by
  intro h
  cases ω <;> cases h

end Serve

end SessionStore

end Verixa
