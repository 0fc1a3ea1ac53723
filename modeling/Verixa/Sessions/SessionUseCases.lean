import Verixa.Sessions.SessionStore
import Verixa.SharedKernel.Errors

/-!
# Opening, refreshing and ending sessions

The four use cases that write sessions, as programs over the calls of the session store:
`IssueSession`, `RefreshAccessToken`, `Logout` and `LogoutEverywhere`.

The loop that evicts sessions has no bound of its own.  It gets a number of passes here, and
stalls when they are used up: whatever a run of the code does, the program with enough passes
does too.
-/

namespace Verixa

open Concurrency Encoding

/-! ## Calls -/

namespace SessionCalls

/-- `new Date()`. -/
def now : SessionProgram ℤ := Program.perform SessionRequest.now

def createId : SessionProgram String := Program.perform SessionRequest.createId

/-- `randomBytes(REFRESH_TOKEN_BYTE_LENGTH).toString("base64url")`. -/
def randomToken : SessionProgram String := Program.perform SessionRequest.randomToken

def findRefreshTokenByHash (tokenHash : String) : SessionProgram (Option RefreshToken) :=
  Program.perform (SessionRequest.findRefreshTokenByHash tokenHash)

def saveRefreshToken (refreshToken : RefreshToken) : SessionProgram Unit :=
  Program.perform (SessionRequest.saveRefreshToken refreshToken)

def findById (id : String) : SessionProgram (Option Session) :=
  Program.perform (SessionRequest.findById id)

def save (session : Session) : SessionProgram Unit := Program.perform (SessionRequest.save session)

def findActiveByUserId (userId : String) : SessionProgram (List Session) :=
  Program.perform (SessionRequest.findActiveByUserId userId)

def revokeAllForUser (userId : String) (now : ℤ) : SessionProgram Unit :=
  Program.perform (SessionRequest.revokeAllForUser userId now)

/-- `revocationList.revoke`. -/
def revoke (sessionId : String) (expiry : ℤ) : SessionProgram Unit :=
  Program.perform (SessionRequest.revoke sessionId expiry)

def sign (payload : AccessTokenPayload) (ttlSeconds : ℤ) : SessionProgram String :=
  Program.perform (SessionRequest.sign payload ttlSeconds)

/-- `sessionAuditLogger.record`. -/
def record (action actorId : String) (metadata : List (String × String)) : SessionProgram Unit :=
  Program.perform (SessionRequest.record action actorId metadata)

def settleOrder (sessions : List Session) : SessionProgram (List Session) :=
  Program.perform (SessionRequest.settleOrder sessions)

def stall : SessionProgram Unit := Program.perform SessionRequest.stall

end SessionCalls

/-! ## Commands, results and errors -/

structure IssueSessionCommand where
  userId : String
  ipAddress : Option String
  userAgent : Option String
  deriving DecidableEq

structure IssuedSession where
  sessionId : String
  accessToken : String
  refreshToken : String
  deriving DecidableEq

structure RefreshAccessTokenCommand where
  refreshToken : String
  deriving DecidableEq

structure RefreshedAccessToken where
  accessToken : String
  refreshToken : String
  deriving DecidableEq

structure LogoutCommand where
  sessionId : String
  revokeUntil : Option ℤ
  deriving DecidableEq

structure LogoutEverywhereCommand where
  userId : String
  deriving DecidableEq

/-- The error of a required field that was left blank. -/
def requiredError (field : String) : ValidationError :=
  ⟨field ++ " is required.", [(field, ["is required"])]⟩

/-- How long both logouts keep a session on the revocation list by default. -/
def DEFAULT_REVOCATION_WINDOW_MS : ℤ := 24 * 60 * 60 * 1000

/-- Zero disables the limit. -/
def DEFAULT_MAX_CONCURRENT_SESSIONS : ℤ := 0

/-! ## The use cases -/

section UseCases

open SessionCalls

variable (sha256 : String → String) (expiryPolicy : SessionExpiryPolicy)

/-- `Math.floor(expiryPolicy.accessTokenTtlMs / 1000)`. -/
def SessionExpiryPolicy.accessTokenTtlSeconds : ℤ := expiryPolicy.accessTokenTtlMs / 1000

namespace IssueSession

/-- Evicts the session seen longest ago until one more is below the limit. -/
def evictOldestUntilUnderLimit (maxConcurrentSessions : ℤ) (userId : String) (now : ℤ) :
    ℕ → SessionProgram Unit
  | 0 => stall
  | passes + 1 => do
    let active ← findActiveByUserId userId
    if active.length < maxConcurrentSessions then return ()
    else
      match active with
      -- there is an `active[0]` because the limit is positive
      | [] => stall
      | oldest :: _ => do
        save (oldest.revoke now)
        revoke oldest.id (now + expiryPolicy.accessTokenTtlMs)
        record "session.evicted" userId
          [("evictedSessionId", oldest.id), ("reason", "concurrent_session_limit")]
        evictOldestUntilUnderLimit maxConcurrentSessions userId now passes

/-- What `execute` does once there is room. -/
def openSession (command : IssueSessionCommand) (now : ℤ) :
    SessionProgram (Except ValidationError IssuedSession) := do
  let sessionId ← createId
  let session := Session.open sessionId command.userId expiryPolicy
    ⟨command.ipAddress, command.userAgent⟩ now
  let rawRefreshToken ← randomToken
  let refreshTokenId ← createId
  let refreshToken := RefreshToken.issue sha256 rawRefreshToken refreshTokenId session.id
    (expiryPolicy.refreshTokenExpiryFrom now) now
  save session
  saveRefreshToken refreshToken
  let accessToken ← sign ⟨session.id, session.userId⟩ expiryPolicy.accessTokenTtlSeconds
  return .ok ⟨session.id, accessToken, rawRefreshToken⟩

/-- Opens a session for a user who has been authenticated. -/
def execute (maxConcurrentSessions : ℤ) (passes : ℕ) (command : IssueSessionCommand) :
    SessionProgram (Except ValidationError IssuedSession) := do
  if isBlank command.userId then return .error (requiredError "userId")
  else do
    let now ← now
    if 0 < maxConcurrentSessions then
      evictOldestUntilUnderLimit expiryPolicy maxConcurrentSessions command.userId now passes
      openSession sha256 expiryPolicy command now
    else openSession sha256 expiryPolicy command now

end IssueSession

namespace RefreshAccessToken

/-- What `execute` does with a token that may be redeemed. -/
def rotate (presented : RefreshToken) (session : Session) (now : ℤ) :
    SessionProgram (Except AuthenticationError RefreshedAccessToken) := do
  let usedToken := presented.markUsed now
  let rawNextToken ← randomToken
  let nextTokenId ← createId
  let nextRefreshToken := RefreshToken.issue sha256 rawNextToken nextTokenId session.id
    (expiryPolicy.refreshTokenExpiryFrom now) now
  let touchedSession := session.touch now
  saveRefreshToken usedToken
  saveRefreshToken nextRefreshToken
  save touchedSession
  let accessToken ← sign ⟨touchedSession.id, touchedSession.userId⟩
    expiryPolicy.accessTokenTtlSeconds
  return .ok ⟨accessToken, rawNextToken⟩

/-- Redeems a refresh token for a new pair of tokens. -/
def execute (command : RefreshAccessTokenCommand) :
    SessionProgram (Except AuthenticationError RefreshedAccessToken) := do
  match ← findRefreshTokenByHash (RefreshToken.hashToken sha256 command.refreshToken) with
  | none => return .error {}
  | some presented =>
    match ← findById presented.sessionId with
    | none => return .error {}
    | some session =>
      let now ← now
      if presented.isUsed then do
        let revokedSession := session.revokeDueToRefreshTokenReuse presented.id now
        save revokedSession
        revoke revokedSession.id (now + expiryPolicy.accessTokenTtlMs)
        return .error {}
      else if !presented.isRedeemable now || !session.isActive expiryPolicy now then
        return .error {}
      else rotate sha256 expiryPolicy presented session now

end RefreshAccessToken

/-- Logs a single session out. -/
def Logout.execute (command : LogoutCommand) : SessionProgram (Except ValidationError Unit) := do
  if isBlank command.sessionId then return .error (requiredError "sessionId")
  else
    match ← findById command.sessionId with
    | none => return .ok ()
    | some session =>
      let now ← now
      save (session.revoke now)
      revoke command.sessionId (command.revokeUntil.getD (now + DEFAULT_REVOCATION_WINDOW_MS))
      return .ok ()

namespace LogoutEverywhere

/-- Puts the sessions on the revocation list, one after another. -/
def revokeEach (expiry : ℤ) : List Session → SessionProgram Unit
  | [] => return ()
  | session :: sessions => do
    revoke session.id expiry
    revokeEach expiry sessions

/-- Revokes every active session of a user. -/
def execute (command : LogoutEverywhereCommand) : SessionProgram (Except ValidationError Unit) := do
  if isBlank command.userId then return .error (requiredError "userId")
  else do
    let now ← now
    let activeSessions ← findActiveByUserId command.userId
    revokeEach (now + DEFAULT_REVOCATION_WINDOW_MS) (← settleOrder activeSessions)
    revokeAllForUser command.userId now
    return .ok ()

end LogoutEverywhere

end UseCases

/-! ## Any number of them at work -/

/-- What a thread is asked to do. -/
inductive SessionCommand where
  | issueSession (passes : ℕ) (command : IssueSessionCommand)
  | refreshAccessToken (command : RefreshAccessTokenCommand)
  | logout (command : LogoutCommand)
  | logoutEverywhere (command : LogoutEverywhereCommand)
  deriving DecidableEq

namespace SessionCommand

/-- What a use case returns. -/
def Result : SessionCommand → Type
  | issueSession _ _ => Except ValidationError IssuedSession
  | refreshAccessToken _ => Except AuthenticationError RefreshedAccessToken
  | logout _ | logoutEverywhere _ => Except ValidationError Unit

instance : (c : SessionCommand) → DecidableEq c.Result
  | issueSession _ _ => inferInstanceAs (DecidableEq (Except ValidationError IssuedSession))
  | refreshAccessToken _ =>
    inferInstanceAs (DecidableEq (Except AuthenticationError RefreshedAccessToken))
  | logout _ => inferInstanceAs (DecidableEq (Except ValidationError Unit))
  | logoutEverywhere _ => inferInstanceAs (DecidableEq (Except ValidationError Unit))

end SessionCommand

/-- How the use cases are deployed: the digest, the texts of signed claims, the policy and the
limit on sessions. -/
structure SessionDeployment where
  sha256 : String → String
  jwt : AccessTokenClaims → String
  expiryPolicy : SessionExpiryPolicy
  maxConcurrentSessions : ℤ := DEFAULT_MAX_CONCURRENT_SESSIONS

namespace SessionDeployment

variable (D : SessionDeployment)

/-- How the calls are answered. -/
abbrev serve : Server SessionStore SessionInput SessionRequest SessionRequest.Answer :=
  SessionStore.serve D.sha256 D.jwt

/-- The program of a use case. -/
def body : (c : SessionCommand) → SessionProgram c.Result
  | .issueSession passes command =>
    IssueSession.execute D.sha256 D.expiryPolicy D.maxConcurrentSessions passes command
  | .refreshAccessToken command =>
    RefreshAccessToken.execute D.sha256 D.expiryPolicy command
  | .logout command => Logout.execute command
  | .logoutEverywhere command => LogoutEverywhere.execute command

end SessionDeployment

/-- The use cases at work on one store. -/
abbrev SessionPool :=
  Pool SessionStore SessionRequest SessionRequest.Answer SessionCommand.Result

/-- One step of the use cases. -/
def SessionDeployment.step (D : SessionDeployment) :
    SessionPool → PoolEvent SessionCommand SessionInput → Option SessionPool :=
  Pool.step D.serve D.body

/-! ## A sample deployment -/

/-- A user. -/
def sampleUserId : String := "7b45145c-1a81-482c-a4e5-0cad66237a04"

/-- The first session of the user. -/
def sampleSessionId : String := "30cbc97d-0fef-4928-a683-6886a260cd0b"

/-- Another session of the user. -/
def sampleOtherSessionId : String := "70ccec31-3571-410a-bc13-2d0d113db17d"

/-- The refresh token the first session is opened with. -/
def sampleToken : String := "pU3KGCUwux1tEyze1iN7LtkeP3IfyxlxF0SU1kk8nVw"

/-- The refresh token of a rotation, or of the other session. -/
def sampleNextToken : String := "NGC-MSAeaf7aoO7ouZl_XHwpmf2v5ZMlPNZUr0361xQ"

/-- The refresh token of another rotation. -/
def sampleOtherToken : String := "J6Cus_7pIy-K8iEfnuSRxbEL7LVWO_web5NCfsvI_ik"

/-- The moment at which the first session is opened, the start of a second. -/
def sampleOpenedAt : ℤ := 1767225600000

/-- A minute later. -/
def sampleRefreshedAt : ℤ := 1767225660000

/-- The digests of the sample refresh tokens. -/
def sampleTokenDigest (text : String) : String :=
  (OrderedMap.lookupEntry text [
    (sampleToken, "28099cffa3693ff24ff0e71c00b1001592dfe632709595a4e21e8bf5134f3899"),
    (sampleNextToken, "faff75b27302b178a85210249d443ddeea8abc8d725fbd1ac7d0175bc5594b43"),
    (sampleOtherToken, "ba9432814c4d25626f847d5eecec249b66fd02c10dffd3a39d0f5b59499091c8")]).getD
      text

/-- The texts of the access tokens signed in the samples. -/
def sampleJwt (claims : AccessTokenClaims) : String :=
  "eyJhbGciOiJIUzI1NiIsInR5cCI6IkpXVCJ9." ++
    (OrderedMap.lookupEntry (claims.sessionId, claims.iat) [
      ((sampleSessionId, 1767225600),
        "eyJzZXNzaW9uSWQiOiIzMGNiYzk3ZC0wZmVmLTQ5MjgtYTY4My02ODg2YTI2MGNkMGIiLCJ1c2VySWQi" ++
        "OiI3YjQ1MTQ1Yy0xYTgxLTQ4MmMtYTRlNS0wY2FkNjYyMzdhMDQiLCJpYXQiOjE3NjcyMjU2MDAsImV4cCI6" ++
        "MTc2NzIyNjUwMH0.fWqbnwP5ICjsASIXnjwUbMqGYxh7TAOh0yt5tV8m-Wk"),
      ((sampleSessionId, 1767225660),
        "eyJzZXNzaW9uSWQiOiIzMGNiYzk3ZC0wZmVmLTQ5MjgtYTY4My02ODg2YTI2MGNkMGIiLCJ1c2VySWQi" ++
        "OiI3YjQ1MTQ1Yy0xYTgxLTQ4MmMtYTRlNS0wY2FkNjYyMzdhMDQiLCJpYXQiOjE3NjcyMjU2NjAsImV4cCI6" ++
        "MTc2NzIyNjU2MH0.SYi9bfacS2VeNg3JcZ0Yl18pvmzHJ1VbY3Eu6r3E6mw"),
      ((sampleOtherSessionId, 1767225660),
        "eyJzZXNzaW9uSWQiOiI3MGNjZWMzMS0zNTcxLTQxMGEtYmMxMy0yZDBkMTEzZGIxN2QiLCJ1c2VySWQi" ++
        "OiI3YjQ1MTQ1Yy0xYTgxLTQ4MmMtYTRlNS0wY2FkNjYyMzdhMDQiLCJpYXQiOjE3NjcyMjU2NjAsImV4cCI6" ++
        "MTc2NzIyNjU2MH0.b7dgKrKeOHTSY6W7gBMWCQS-aBo1K35C76YRKMDONss")]).getD ""

/-- The default policy, without a limit on sessions. -/
def sampleDeployment : SessionDeployment where
  sha256 := sampleTokenDigest
  jwt := sampleJwt
  expiryPolicy := .default

/-- What happens in the samples. -/
abbrev SessionSchedule := List (PoolEvent SessionCommand SessionInput)

/-- Thread `i` opens a session of the user, from start to end. -/
def openingOf (i : ℕ) (sessionId token tokenId : String) (now : ℤ) : SessionSchedule :=
  [.start i (.issueSession 0 ⟨sampleUserId, none, none⟩), .answer i (.time now),
    .answer i (.text sessionId), .answer i (.text token), .answer i (.text tokenId),
    .answer i .served, .answer i .served, .answer i (.time now)]

/-- The first session is opened. -/
def sampleOpening : SessionSchedule :=
  openingOf 0 sampleSessionId sampleToken "99c94309-570d-4195-9c24-42f9298cb3a5" sampleOpenedAt

/-- A refresh with the first token reads the token, its session and the clock. -/
def readingOf (i : ℕ) : SessionSchedule :=
  [.start i (.refreshAccessToken ⟨sampleToken⟩), .answer i .served, .answer i .served,
    .answer i (.time sampleRefreshedAt)]

/-- What such a refresh does next, if the token may be redeemed. -/
def rotationOf (i : ℕ) (token tokenId : String) : SessionSchedule :=
  [.answer i (.text token), .answer i (.text tokenId), .answer i .served, .answer i .served,
    .answer i .served, .answer i (.time sampleRefreshedAt)]

end Verixa
