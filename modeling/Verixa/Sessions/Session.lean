import Verixa.Encoding.Text
import Verixa.SharedKernel.Record

/-!
# Sessions and refresh tokens

A session is one login of a user, and a refresh token one link of its rotation chain.  Both are
values: what changes them returns a new one.  Moments are milliseconds since the epoch, and the
durations of a policy are whole numbers of milliseconds.
-/

namespace Verixa

/-! ## Expiry policy -/

/-- What a policy is created from. -/
structure SessionExpiryPolicyProps where
  refreshTokenTtlMs : ℤ
  accessTokenTtlMs : ℤ
  absoluteLifetimeMs : ℤ
  idleTimeoutMs : ℤ
  deriving DecidableEq

/-- How long sessions, access tokens and refresh tokens live. -/
structure SessionExpiryPolicy extends SessionExpiryPolicyProps where
  refreshTokenTtlMs_pos : 0 < refreshTokenTtlMs
  accessTokenTtlMs_pos : 0 < accessTokenTtlMs
  absoluteLifetimeMs_pos : 0 < absoluteLifetimeMs
  idleTimeoutMs_pos : 0 < idleTimeoutMs
  accessTokenTtlMs_le : accessTokenTtlMs ≤ refreshTokenTtlMs

namespace SessionExpiryPolicy

/-- The message of a field that is not positive. -/
def positiveError (field : String) (value : ℤ) : List (String × List String) :=
  if value ≤ 0 then [(field, ["must be a positive number of milliseconds"])] else []

/-- What is wrong with the fields.  An access token that outlives a refresh token is reported in
addition to what is reported for the field itself. -/
def fieldErrors (props : SessionExpiryPolicyProps) : List (String × List String) :=
  let errors := positiveError "refreshTokenTtlMs" props.refreshTokenTtlMs ++
    positiveError "accessTokenTtlMs" props.accessTokenTtlMs ++
    positiveError "absoluteLifetimeMs" props.absoluteLifetimeMs ++
    positiveError "idleTimeoutMs" props.idleTimeoutMs
  if props.refreshTokenTtlMs < props.accessTokenTtlMs then
    OrderedMap.upsertEntry "accessTokenTtlMs"
      ((OrderedMap.lookupEntry "accessTokenTtlMs" errors).getD [] ++
        ["must not be longer than refreshTokenTtlMs"]) errors
  else errors

theorem positiveError_eq_nil_iff {field : String} {value : ℤ} :
    positiveError field value = [] ↔ 0 < value := by
  unfold positiveError
  split
  · simp
    omega
  · simp
    omega

/-- Props without field errors are those of a policy. -/
theorem of_fieldErrors_eq_nil {props : SessionExpiryPolicyProps} (h : fieldErrors props = []) :
    0 < props.refreshTokenTtlMs ∧ 0 < props.accessTokenTtlMs ∧ 0 < props.absoluteLifetimeMs ∧
      0 < props.idleTimeoutMs ∧ props.accessTokenTtlMs ≤ props.refreshTokenTtlMs := by
  have hupsert : ∀ (k : String) (v : List String) l, OrderedMap.upsertEntry k v l ≠ [] := by
    intro k v l hnil
    have hkey : k ∈ (OrderedMap.upsertEntry k v l).map Prod.fst :=
      OrderedMap.mem_keys_upsertEntry.mpr (.inl rfl)
    simp [hnil] at hkey
  simp only [fieldErrors] at h
  split at h
  · exact absurd h (hupsert _ _ _)
  · rename_i hle
    simp only [List.append_eq_nil_iff, positiveError_eq_nil_iff] at h
    obtain ⟨⟨⟨hrefresh, haccess⟩, habsolute⟩, hidle⟩ := h
    exact ⟨hrefresh, haccess, habsolute, hidle, not_lt.mp hle⟩

/-- Checks the fields of a policy. -/
def create (props : SessionExpiryPolicyProps) : Except ValidationError SessionExpiryPolicy :=
  if h : fieldErrors props = [] then
    .ok
      { props with
        refreshTokenTtlMs_pos := (of_fieldErrors_eq_nil h).1
        accessTokenTtlMs_pos := (of_fieldErrors_eq_nil h).2.1
        absoluteLifetimeMs_pos := (of_fieldErrors_eq_nil h).2.2.1
        idleTimeoutMs_pos := (of_fieldErrors_eq_nil h).2.2.2.1
        accessTokenTtlMs_le := (of_fieldErrors_eq_nil h).2.2.2.2 }
  else .error ⟨"Invalid session expiry policy.", fieldErrors props⟩

/-- Short-lived access tokens, and refresh tokens good for thirty days. -/
def default : SessionExpiryPolicy where
  accessTokenTtlMs := 15 * 60 * 1000
  refreshTokenTtlMs := 30 * 24 * 60 * 60 * 1000
  absoluteLifetimeMs := 30 * 24 * 60 * 60 * 1000
  idleTimeoutMs := 7 * 24 * 60 * 60 * 1000
  refreshTokenTtlMs_pos := by decide
  accessTokenTtlMs_pos := by decide
  absoluteLifetimeMs_pos := by decide
  idleTimeoutMs_pos := by decide
  accessTokenTtlMs_le := by decide

/-- The props of a policy pass the checks. -/
theorem create_toProps (policy : SessionExpiryPolicy) :
    create policy.toSessionExpiryPolicyProps = .ok policy := by
  have hnil : fieldErrors policy.toSessionExpiryPolicyProps = [] := by
    simp only [fieldErrors, positiveError_eq_nil_iff.mpr policy.refreshTokenTtlMs_pos,
      positiveError_eq_nil_iff.mpr policy.accessTokenTtlMs_pos,
      positiveError_eq_nil_iff.mpr policy.absoluteLifetimeMs_pos,
      positiveError_eq_nil_iff.mpr policy.idleTimeoutMs_pos, List.append_nil,
      if_neg (not_lt.mpr policy.accessTokenTtlMs_le)]
  rw [create, dif_pos hnil]

/-- The absolute expiry of a session opened at `openedAt`. -/
def absoluteExpiryFrom (policy : SessionExpiryPolicy) (openedAt : ℤ) : ℤ :=
  openedAt + policy.absoluteLifetimeMs

/-- The expiry of a refresh token issued at `issuedAt`. -/
def refreshTokenExpiryFrom (policy : SessionExpiryPolicy) (issuedAt : ℤ) : ℤ :=
  issuedAt + policy.refreshTokenTtlMs

/-- Whether a session last seen at `lastSeenAt` has gone idle. -/
def isIdleExpired (policy : SessionExpiryPolicy) (lastSeenAt now : ℤ) : Bool :=
  decide (policy.idleTimeoutMs ≤ now - lastSeenAt)

end SessionExpiryPolicy

/-! ## Sessions -/

/-- The event of a refresh token presented after it was rotated out; `aggregateId` is the id of
its session. -/
structure RefreshTokenReuseDetected where
  aggregateId : String
  userId : String
  refreshTokenId : String
  deriving DecidableEq

/-- Where a session was opened from. -/
structure SessionMetadata where
  ipAddress : Option String
  userAgent : Option String
  deriving DecidableEq

/-- A logged-in session of a user. -/
structure Session where
  id : String
  userId : String
  createdAt : ℤ
  lastSeenAt : ℤ
  expiresAt : ℤ
  ipAddress : Option String
  userAgent : Option String
  revokedAt : Option ℤ
  domainEvents : List RefreshTokenReuseDetected
  deriving DecidableEq

namespace Session

/-- `Session.open`, with the id that `createId` returns. -/
def «open» (id userId : String) (policy : SessionExpiryPolicy) (metadata : SessionMetadata)
    (now : ℤ) : Session where
  id := id
  userId := userId
  createdAt := now
  lastSeenAt := now
  expiresAt := policy.absoluteExpiryFrom now
  ipAddress := metadata.ipAddress
  userAgent := metadata.userAgent
  revokedAt := none
  domainEvents := []

/-- The session was revoked. -/
def isRevoked (session : Session) : Bool := session.revokedAt.isSome

/-- Whether the session may still be used: not revoked, not expired, not idle for too long. -/
def isActive (session : Session) (policy : SessionExpiryPolicy) (now : ℤ) : Bool :=
  if session.isRevoked then false
  else if session.expiresAt ≤ now then false
  else !policy.isIdleExpired session.lastSeenAt now

/-- Records activity. -/
def touch (session : Session) (now : ℤ) : Session := { session with lastSeenAt := now }

/-- Revokes the session; an earlier revocation stands. -/
def revoke (session : Session) (now : ℤ) : Session :=
  if session.isRevoked then session
  else { session with revokedAt := some now, domainEvents := [] }

/-- Revokes the session because one of its refresh tokens was used again. -/
def revokeDueToRefreshTokenReuse (session : Session) (refreshTokenId : String) (now : ℤ) :
    Session :=
  if session.isRevoked then session
  else
    { session with
      revokedAt := some now
      domainEvents := [⟨session.id, session.userId, refreshTokenId⟩] }

@[simp] theorem touch_id (session : Session) (now : ℤ) : (session.touch now).id = session.id := rfl

@[simp] theorem isRevoked_touch (session : Session) (now : ℤ) :
    (session.touch now).isRevoked = session.isRevoked := rfl

@[simp] theorem revoke_id (session : Session) (now : ℤ) : (session.revoke now).id = session.id := by
  unfold revoke
  split <;> rfl

@[simp] theorem isRevoked_revoke (session : Session) (now : ℤ) :
    (session.revoke now).isRevoked = true := by
  unfold revoke
  split
  · assumption
  · rfl

@[simp] theorem revokeDueToRefreshTokenReuse_id (session : Session) (refreshTokenId : String)
    (now : ℤ) : (session.revokeDueToRefreshTokenReuse refreshTokenId now).id = session.id := by
  unfold revokeDueToRefreshTokenReuse
  split <;> rfl

@[simp] theorem isRevoked_revokeDueToRefreshTokenReuse (session : Session)
    (refreshTokenId : String) (now : ℤ) :
    (session.revokeDueToRefreshTokenReuse refreshTokenId now).isRevoked = true := by
  unfold revokeDueToRefreshTokenReuse
  split
  · assumption
  · rfl

/-- An active session is not revoked. -/
theorem isRevoked_of_isActive {session : Session} {policy : SessionExpiryPolicy} {now : ℤ}
    (h : session.isActive policy now = true) : session.isRevoked = false := by
  cases hrevoked : session.isRevoked with
  | false => rfl
  | true => simp [isActive, hrevoked] at h

end Session

/-! ## Refresh tokens -/

/-- One link in the rotation chain of a session. -/
structure RefreshToken where
  id : String
  sessionId : String
  tokenHash : String
  createdAt : ℤ
  expiresAt : ℤ
  usedAt : Option ℤ
  revokedAt : Option ℤ
  deriving DecidableEq

namespace RefreshToken

/-- The only form in which a raw token is stored or looked up. -/
def hashToken (sha256 : String → String) (token : String) : String := sha256 token

/-- Issues a token for a session; `token` is what `randomBytes` gives and `id` what `createId`
returns. -/
def issue (sha256 : String → String) (token id sessionId : String) (expiresAt now : ℤ) :
    RefreshToken where
  id := id
  sessionId := sessionId
  tokenHash := hashToken sha256 token
  createdAt := now
  expiresAt := expiresAt
  usedAt := none
  revokedAt := none

def isExpired (token : RefreshToken) (now : ℤ) : Bool := decide (token.expiresAt ≤ now)

/-- The token was consumed by a rotation. -/
def isUsed (token : RefreshToken) : Bool := token.usedAt.isSome

def isRevoked (token : RefreshToken) : Bool := token.revokedAt.isSome

/-- Whether the token may still be redeemed. -/
def isRedeemable (token : RefreshToken) (now : ℤ) : Bool :=
  !token.isUsed && !token.isRevoked && !token.isExpired now

/-- Marks the token consumed by a rotation. -/
def markUsed (token : RefreshToken) (now : ℤ) : RefreshToken := { token with usedAt := some now }

@[simp] theorem tokenHash_markUsed (token : RefreshToken) (now : ℤ) :
    (token.markUsed now).tokenHash = token.tokenHash := rfl

@[simp] theorem sessionId_markUsed (token : RefreshToken) (now : ℤ) :
    (token.markUsed now).sessionId = token.sessionId := rfl

@[simp] theorem isUsed_markUsed (token : RefreshToken) (now : ℤ) :
    (token.markUsed now).isUsed = true := rfl

@[simp] theorem isUsed_issue (sha256 : String → String) (token id sessionId : String)
    (expiresAt now : ℤ) : (issue sha256 token id sessionId expiresAt now).isUsed = false := rfl

end RefreshToken

end Verixa
