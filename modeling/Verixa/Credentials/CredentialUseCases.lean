import Verixa.Credentials.CredentialStore

/-!
# Logging in, resetting and changing a password

The three use cases that write credentials, as programs over the calls of the credential store:
`AuthenticateWithPassword`, `ConfirmPasswordReset` and `ChangePassword`, with the brute-force
policy that the first two consult.

`execute` may throw, which is the outer `Except` of what it returns.
-/

namespace Verixa

open Concurrency Encoding

/-! ## Calls -/

namespace CredentialCalls

/-- `new Date()` and `Date.now()`. -/
def now : CredentialProgram ℤ := Program.perform CredentialRequest.now

def createId : CredentialProgram String := Program.perform CredentialRequest.createId

/-- `rateLimiter.check`. -/
def checkRateLimit (key : RateLimitKey) : CredentialProgram RateLimitResult :=
  Program.perform (CredentialRequest.checkRateLimit key)

/-- `rateLimiter.recordFailure`. -/
def recordRateLimitFailure (key : RateLimitKey) : CredentialProgram Unit :=
  Program.perform (CredentialRequest.recordRateLimitFailure key)

/-- `rateLimiter.reset`. -/
def resetRateLimit (key : RateLimitKey) : CredentialProgram Unit :=
  Program.perform (CredentialRequest.resetRateLimit key)

/-- `limiter?.check` of the brute-force policy. -/
def checkAttemptLimit (key : RateLimitKey) : CredentialProgram (Option RateLimitResult) :=
  Program.perform (CredentialRequest.checkAttemptLimit key)

/-- `store.read` of the brute-force policy. -/
def readAttempts (key : String) : CredentialProgram AttemptRecord :=
  Program.perform (CredentialRequest.readAttempts key)

/-- `store.recordFailure` of the brute-force policy. -/
def recordAttempt (key : String) (lockedUntil : Option ℤ) : CredentialProgram Unit :=
  Program.perform (CredentialRequest.recordAttempt key lockedUntil)

/-- `store.clear` of the brute-force policy. -/
def clearAttempts (key : String) : CredentialProgram Unit :=
  Program.perform (CredentialRequest.clearAttempts key)

/-- Verifies the candidate against a decoy and throws the answer away. -/
def burnTime (candidate : String) : CredentialProgram Unit :=
  Program.perform (CredentialRequest.burnTime candidate)

/-- `passwordHasher.hash`, `none` when it fails. -/
def hash (plaintext : String) : CredentialProgram (Option String) :=
  Program.perform (CredentialRequest.hash plaintext)

/-- `passwordHasher.verify`. -/
def verify (plaintext hash : String) : CredentialProgram Bool :=
  Program.perform (CredentialRequest.verify plaintext hash)

def findUserByEmail (email : Email) : CredentialProgram (Option User) :=
  Program.perform (CredentialRequest.findUserByEmail email)

def findUserById (id : String) : CredentialProgram (Option User) :=
  Program.perform (CredentialRequest.findUserById id)

def findCredentialByUserId (useCase : CredentialUseCase) (userId : String) :
    CredentialProgram (Option Credential) :=
  Program.perform (CredentialRequest.findCredentialByUserId useCase userId)

def saveCredential (useCase : CredentialUseCase) (credential : Credential) :
    CredentialProgram Unit :=
  Program.perform (CredentialRequest.saveCredential useCase credential)

def findResetTokenByHash (tokenHash : String) : CredentialProgram (Option PasswordResetToken) :=
  Program.perform (CredentialRequest.findResetTokenByHash tokenHash)

def saveResetToken (token : PasswordResetToken) : CredentialProgram Unit :=
  Program.perform (CredentialRequest.saveResetToken token)

/-- `sessionRevoker.revokeAllForUser`, `false` when it fails. -/
def revokeAllForUser (userId : String) : CredentialProgram Bool :=
  Program.perform (CredentialRequest.revokeAllForUser userId)

/-- `mfaChecker.resolvePolicy`. -/
def resolvePolicy (userId : String) : CredentialProgram MfaEnforcementLevel :=
  Program.perform (CredentialRequest.resolvePolicy userId)

/-- `mfaChecker.listActiveMethods`. -/
def listActiveMethods (userId : String) : CredentialProgram (List MfaMethodSummary) :=
  Program.perform (CredentialRequest.listActiveMethods userId)

/-- `unitOfWork.run`. -/
def run {α : Type} (work : CredentialProgram α) : CredentialProgram α := do
  Program.perform CredentialRequest.begin
  let outcome ← work
  Program.perform CredentialRequest.finish
  return outcome

end CredentialCalls

open CredentialCalls

/-! ## Deployments -/

/-- How the use cases are deployed. -/
structure CredentialDeployment extends CredentialServices where
  sha256 : String → String
  toLowerCase : String → String
  lockoutPolicy : LockoutPolicy := DEFAULT_LOCKOUT_POLICY
  passwordPolicy : PasswordPolicy := DEFAULT_PASSWORD_POLICY
  passwordHistoryPolicy : PasswordHistoryPolicy := DEFAULT_PASSWORD_HISTORY_POLICY
  /-- The login asks about second factors. -/
  checksMfa : Bool := false

variable (D : CredentialDeployment)

/-! ## The brute-force policy -/

namespace BruteForcePolicy

/-- For how much longer the key is locked; the clock is read if there is a lock at all. -/
def readRemainingLockMs (lockedUntil : Option ℤ) : CredentialProgram ℤ :=
  match lockedUntil with
  | none => return 0
  | some _ => do
    let now ← now
    return remainingLockMs lockedUntil now

/-- Forgets the key if its lock has elapsed. -/
def clearElapsed (key : String) (lockedUntil : Option ℤ) (remainingMs : ℤ) :
    CredentialProgram Unit :=
  if remainingMs = 0 ∧ lockedUntil.isSome then clearAttempts key else return ()

/-- In how many seconds a limiter that has refused admits again. -/
def readLimiterSeconds (limit : Option RateLimitResult) : CredentialProgram (Option ℤ) :=
  match limit with
  | none => return none
  | some result =>
    if result.allowed then return none
    else do
      let now ← now
      return secondsUntil result.resetAt now

/-- Whether an attempt may proceed right now. -/
def check (scope : RateLimitAction) (identifier : String) :
    CredentialProgram BruteForceDecision := do
  let record ← readAttempts (key D.toLowerCase scope identifier)
  let remainingMs ← readRemainingLockMs record.lockedUntil
  clearElapsed (key D.toLowerCase scope identifier) record.lockedUntil remainingMs
  let limit ← checkAttemptLimit { action := scope, identifier := D.toLowerCase (trim identifier) }
  let limiterSeconds ← readLimiterSeconds limit
  return decision remainingMs (limit.any fun result => !result.allowed) limiterSeconds

/-- Until when to refuse after so many failures. -/
def readLockUntil (thresholds : BruteForceThresholds) (failedAttempts : ℕ) :
    CredentialProgram (Option ℤ) :=
  if thresholds.lockDurationMs failedAttempts = 0 then return none
  else do
    let now ← now
    return some (now + thresholds.lockDurationMs failedAttempts)

/-- Records one failed attempt. -/
def recordFailure (thresholds : BruteForceThresholds) (scope : RateLimitAction)
    (identifier : String) : CredentialProgram Unit := do
  let record ← readAttempts (key D.toLowerCase scope identifier)
  let lockedUntil ← readLockUntil thresholds (record.failedAttempts + 1)
  recordAttempt (key D.toLowerCase scope identifier) lockedUntil

/-- Forgets the key. -/
def recordSuccess (scope : RateLimitAction) (identifier : String) : CredentialProgram Unit :=
  clearAttempts (key D.toLowerCase scope identifier)

end BruteForcePolicy

/-- `bruteForce?.check`: without a policy an attempt may proceed. -/
def mayProceed (scope : RateLimitAction) (identifier : String) : CredentialProgram Bool :=
  match D.bruteForce with
  | none => return true
  | some _ => do
    let gate ← BruteForcePolicy.check D scope identifier
    return gate.allowed

/-- `bruteForce?.recordFailure`. -/
def countFailure (scope : RateLimitAction) (identifier : String) : CredentialProgram Unit :=
  match D.bruteForce with
  | none => return ()
  | some policy => BruteForcePolicy.recordFailure D policy.thresholds scope identifier

/-- `bruteForce?.recordSuccess`. -/
def countSuccess (scope : RateLimitAction) (identifier : String) : CredentialProgram Unit :=
  match D.bruteForce with
  | none => return ()
  | some _ => BruteForcePolicy.recordSuccess D scope identifier

/-! ## Logging in -/

structure AuthenticateWithPasswordCommand where
  email : String
  password : String
  deriving DecidableEq

/-- What a login succeeds with: the user, whether the hash was upgraded, and what is asked for
next. -/
inductive AuthenticateWithPasswordSuccess where
  | signedIn (user : User) (rehashed : Bool)
  | enrollmentRequired (user : User) (rehashed : Bool) (userId : String)
  | mfaChallenge (user : User) (rehashed : Bool) (userId : String)
      (methods : List MfaMethodSummary)
  deriving DecidableEq

/-- The user who has logged in. -/
def AuthenticateWithPasswordSuccess.user : AuthenticateWithPasswordSuccess → User
  | signedIn user _ | enrollmentRequired user _ _ | mfaChallenge user _ _ _ => user

/-- What a login fails with. -/
inductive AuthenticateWithPasswordError where
  | authentication (error : AuthenticationError)
  | accountLocked (error : AccountLockedError)
  deriving DecidableEq

/-- What a login returns, or throws. -/
abbrev AuthenticateWithPasswordResult :=
  Except ThrownError (Except AuthenticateWithPasswordError AuthenticateWithPasswordSuccess)

namespace AuthenticateWithPassword

/-- What the transaction concludes. -/
inductive Outcome where
  | ok (user : User) (credential : Credential)
  | failed
  | locked
  deriving DecidableEq

/-- Account statuses whose owner may still prove who they are. -/
def canAuthenticate : UserStatus → Bool
  | .pending | .active => true
  | .suspended | .deleted => false

/-- What the transaction does with the credential of a user. -/
def verifyCredential (rateLimitKey : RateLimitKey) (command : AuthenticateWithPasswordCommand)
    (user : User) (credential : Credential) (now : ℤ) : CredentialProgram Outcome := do
  if credential.isLockedAt now then do
    burnTime command.password
    saveCredential .authenticateWithPassword (credential.recordFailedAttempt D.lockoutPolicy now)
    return .locked
  else do
    let isMatch ← verify command.password credential.passwordHash
    if !isMatch then do
      saveCredential .authenticateWithPassword
        (credential.recordFailedAttempt D.lockoutPolicy now)
      recordRateLimitFailure rateLimitKey
      return .failed
    else if !canAuthenticate user.status then return .failed
    -- nothing is saved when there is nothing to clear
    else if credential.isClear then return .ok user credential
    else do
      saveCredential .authenticateWithPassword (credential.recordSuccessfulAttempt now)
      return .ok user (credential.recordSuccessfulAttempt now)

/-- The transaction. -/
def transaction (rateLimitKey : RateLimitKey) (command : AuthenticateWithPasswordCommand)
    (email : Email) (now : ℤ) : CredentialProgram Outcome := do
  match ← findUserByEmail email with
  | none => do
    countFailure D .login command.email
    burnTime command.password
    return .failed
  | some user =>
    match ← findCredentialByUserId .authenticateWithPassword user.id with
    | none => do
      countFailure D .login command.email
      burnTime command.password
      return .failed
    | some credential => verifyCredential D rateLimitKey command user credential now

/-- Re-hashes the password when the stored hash was made with weaker parameters. -/
def upgradeHashIfStale (credential : Credential) (plaintext : String) :
    CredentialProgram Bool := do
  if D.hasher.needsRehash credential.passwordHash then
    match ← hash plaintext with
    | none => return false
    | some newHash => do
      let now ← now
      run (saveCredential .authenticateWithPassword (credential.withPasswordHash newHash now))
      return true
  else return false

/-- What a verified login returns. -/
def conclude (user : User) (rehashed : Bool) :
    CredentialProgram AuthenticateWithPasswordSuccess := do
  if D.checksMfa then do
    let policy ← resolvePolicy user.id
    let activeMethods ← listActiveMethods user.id
    if policy = .required ∧ activeMethods = [] then
      return .enrollmentRequired user rehashed user.id
    else if activeMethods ≠ [] then return .mfaChallenge user rehashed user.id activeMethods
    else return .signedIn user rehashed
  else return .signedIn user rehashed

/-- What follows a verified password. -/
def finishLogin (rateLimitKey : RateLimitKey) (command : AuthenticateWithPasswordCommand)
    (user : User) (credential : Credential) :
    CredentialProgram AuthenticateWithPasswordResult := do
  countSuccess D .login command.email
  resetRateLimit rateLimitKey
  let rehashed ← upgradeHashIfStale D credential command.password
  let success ← conclude D user rehashed
  return .ok (.ok success)

/-- Verifies an email and password. -/
def execute (command : AuthenticateWithPasswordCommand) :
    CredentialProgram AuthenticateWithPasswordResult := do
  let rateLimitKey : RateLimitKey := { action := .login, identifier := command.email }
  let limitResult ← checkRateLimit rateLimitKey
  if !limitResult.allowed then
    return .error (rateLimitExceeded rateLimitKey limitResult.resetAt)
  else do
    if !(← mayProceed D .login command.email) then do
      burnTime command.password
      return .ok (.error (.authentication {}))
    else
      match Email.create D.toLowerCase command.email with
      | .error _ => do
        burnTime command.password
        return .ok (.error (.authentication {}))
      | .ok email => do
        let now ← now
        match ← run (transaction D rateLimitKey command email now) with
        | .locked => return .ok (.error (.accountLocked {}))
        | .failed => return .ok (.error (.authentication {}))
        | .ok user credential => finishLogin D rateLimitKey command user credential

end AuthenticateWithPassword

/-! ## Password reset -/

structure ConfirmPasswordResetCommand where
  token : String
  newPassword : String
  deriving DecidableEq

structure ConfirmPasswordResetResult where
  user : User
  deriving DecidableEq

/-- The refusal of a link, whatever the reason. -/
def invalidLinkError : ValidationError :=
  ⟨"This reset link is not valid.", [("token", ["invalid"])]⟩

/-- The refusal of a password that was used before. -/
def passwordReusedError (policy : PasswordHistoryPolicy) : ValidationError :=
  ⟨"Password was recently used. Please choose a password not used in your last " ++
    Nat.repr policy.depth ++ " passwords.", [("password", ["reused"])]⟩

/-- The password was changed, but the sessions live on. -/
def revocationFailedError : ValidationError :=
  ⟨"Your password was changed, but existing sessions could not be signed out. " ++
    "Sign out of all devices manually.", [("sessions", ["revocation_failed"])]⟩

/-- `Credential.isPasswordReused`: the hashes are tried one after another, until one verifies the
candidate. -/
def isPasswordReused (candidate : String) : List String → CredentialProgram Bool
  | [] => return false
  | known :: rest => do
    if ← verify candidate known then return true else isPasswordReused candidate rest

/-- What a failed hash throws. -/
def hashingFailed : ThrownError := { message := "Hashing failed." }

namespace ConfirmPasswordReset

/-- What the transaction concludes. -/
inductive Outcome where
  | invalid
  | passwordReused
  | ok (user : User)
  deriving DecidableEq

/-- What the transaction does with the credential of the user, if there is one. -/
def replaceCredential (tokenHash newPassword newHash : String) (user : User) :
    CredentialProgram Outcome := do
  match ← findCredentialByUserId (.confirmPasswordReset tokenHash) user.id with
  | none => do
    let id ← createId
    let now ← now
    saveCredential (.confirmPasswordReset tokenHash) (Credential.create id user.id newHash now)
    return .ok user
  | some existing => do
    if ← isPasswordReused newPassword existing.knownHashes then return .passwordReused
    else do
      let now ← now
      saveCredential (.confirmPasswordReset tokenHash)
        (existing.rotatePassword newHash D.passwordHistoryPolicy now)
      return .ok user

/-- The transaction. -/
def transaction (command : ConfirmPasswordResetCommand) (newHash : String) (now : ℤ) :
    CredentialProgram Outcome := do
  match ← findResetTokenByHash (hashToken D.sha256 command.token) with
  | none => return .invalid
  | some token =>
    if !token.matchesToken D.sha256 command.token then return .invalid
    else
      match token.consume now with
      | .error _ => return .invalid
      | .ok consumed =>
        match ← findUserById token.userId with
        | none => return .invalid
        | some user => do
          saveResetToken consumed
          replaceCredential D (hashToken D.sha256 command.token) command.newPassword newHash user

/-- What follows the transaction. -/
def finishReset (rateLimitKey : RateLimitKey) (tokenHash : String) :
    Outcome → CredentialProgram (Except ThrownError (Except ValidationError
      ConfirmPasswordResetResult))
  | .invalid => do
    countFailure D .passwordReset tokenHash
    return .ok (.error invalidLinkError)
  | .passwordReused => return .ok (.error (passwordReusedError D.passwordHistoryPolicy))
  | .ok user => do
    countSuccess D .passwordReset tokenHash
    if !(← revokeAllForUser user.id) then return .ok (.error revocationFailedError)
    else do
      resetRateLimit rateLimitKey
      return .ok (.ok ⟨user⟩)

/-- Completes a password reset. -/
def execute (command : ConfirmPasswordResetCommand) :
    CredentialProgram (Except ThrownError (Except ValidationError ConfirmPasswordResetResult)) := do
  let rateLimitKey : RateLimitKey := { action := .passwordReset, identifier := command.token }
  let limitResult ← checkRateLimit rateLimitKey
  if !limitResult.allowed then
    return .error (rateLimitExceeded rateLimitKey limitResult.resetAt)
  else
    match RawPassword.create D.passwordPolicy command.newPassword with
    | .error error => return .ok (.error error)
    | .ok password => do
      let now ← now
      let tokenHash := hashToken D.sha256 command.token
      if !(← mayProceed D .passwordReset tokenHash) then return .ok (.error invalidLinkError)
      else
        match ← hash password.reveal with
        | none => return .error hashingFailed
        | some newHash => do
          let outcome ← run (transaction D command newHash now)
          finishReset D rateLimitKey tokenHash outcome

end ConfirmPasswordReset

/-! ## Password change -/

structure ChangePasswordCommand where
  userId : String
  currentPassword : String
  newPassword : String
  deriving DecidableEq

structure ChangePasswordResult where
  user : User
  deriving DecidableEq

/-- The refusal of a re-authentication. -/
def wrongCurrentPasswordError : ValidationError :=
  ⟨"Current password is incorrect.", [("currentPassword", ["incorrect"])]⟩

namespace ChangePassword

/-- What the first transaction concludes. -/
inductive Outcome where
  | userNotFound
  | noCredential
  | wrongCurrentPassword
  | passwordReused
  | ok (user : User)
  deriving DecidableEq

/-- The transaction that re-authenticates the user and checks the new password. -/
def reauthenticate (command : ChangePasswordCommand) : CredentialProgram Outcome := do
  match ← findUserById command.userId with
  | none => return .userNotFound
  | some user =>
    match ← findCredentialByUserId .changePassword user.id with
    | none => return .noCredential
    | some credential => do
      if !(← verify command.currentPassword credential.passwordHash) then
        return .wrongCurrentPassword
      else if ← isPasswordReused command.newPassword credential.knownHashes then
        return .passwordReused
      else return .ok user

/-- The transaction that replaces the hash; `false` when the credential has vanished. -/
def rotate (user : User) (newHash : String) : CredentialProgram Bool := do
  match ← findCredentialByUserId .changePassword user.id with
  | none => return false
  | some credential => do
    let now ← now
    saveCredential .changePassword
      (credential.rotatePassword newHash D.passwordHistoryPolicy now)
    return true

/-- Changes the password of a user who knows the current one. -/
def execute (command : ChangePasswordCommand) :
    CredentialProgram (Except ThrownError (Except ValidationError ChangePasswordResult)) := do
  match RawPassword.create D.passwordPolicy command.newPassword with
  | .error error => return .ok (.error error)
  | .ok password => do
    match ← run (reauthenticate command) with
    | .userNotFound =>
      return .error { message := "ChangePassword: outcome.kind === user_not_found" }
    | .noCredential =>
      return .error { message := "ChangePassword: outcome.kind === no_credential" }
    | .wrongCurrentPassword => return .ok (.error wrongCurrentPasswordError)
    | .passwordReused => return .ok (.error (passwordReusedError D.passwordHistoryPolicy))
    | .ok user =>
      match ← hash password.reveal with
      | none => return .error hashingFailed
      | some newHash => do
        if ← run (rotate D user newHash) then return .ok (.ok ⟨user⟩)
        else
          return .error { message := "ChangePassword: credential vanished during transaction" }

end ChangePassword

/-! ## Any number of them at work -/

/-- What a thread is asked to do. -/
inductive CredentialCommand where
  | authenticateWithPassword (command : AuthenticateWithPasswordCommand)
  | confirmPasswordReset (command : ConfirmPasswordResetCommand)
  | changePassword (command : ChangePasswordCommand)
  deriving DecidableEq

namespace CredentialCommand

/-- What a use case returns. -/
def Result : CredentialCommand → Type
  | authenticateWithPassword _ => AuthenticateWithPasswordResult
  | confirmPasswordReset _ =>
    Except ThrownError (Except ValidationError ConfirmPasswordResetResult)
  | changePassword _ => Except ThrownError (Except ValidationError ChangePasswordResult)

instance : (c : CredentialCommand) → DecidableEq c.Result
  | authenticateWithPassword _ => inferInstanceAs (DecidableEq AuthenticateWithPasswordResult)
  | confirmPasswordReset _ => inferInstanceAs
    (DecidableEq (Except ThrownError (Except ValidationError ConfirmPasswordResetResult)))
  | changePassword _ => inferInstanceAs
    (DecidableEq (Except ThrownError (Except ValidationError ChangePasswordResult)))

end CredentialCommand

namespace CredentialDeployment

/-- How the calls are answered. -/
abbrev serve :
    Server CredentialStore CredentialInput CredentialRequest CredentialRequest.Answer :=
  CredentialStore.serve D.toCredentialServices

/-- The program of a use case. -/
def body : (c : CredentialCommand) → CredentialProgram c.Result
  | .authenticateWithPassword command => AuthenticateWithPassword.execute D command
  | .confirmPasswordReset command => ConfirmPasswordReset.execute D command
  | .changePassword command => ChangePassword.execute D command

end CredentialDeployment

/-- The use cases at work on one store. -/
abbrev CredentialPool :=
  Pool CredentialStore CredentialRequest CredentialRequest.Answer CredentialCommand.Result

/-- One step of the use cases. -/
def CredentialDeployment.step :
    CredentialPool → PoolEvent CredentialCommand CredentialInput → Option CredentialPool :=
  Pool.step D.serve D.body

/-! ## A sample deployment -/

/-- A hasher that shows what it was given; hashes made with little memory are stale. -/
def sampleHasher : PasswordHasher where
  hashes plaintext hash := decide (hash = "m=19456$" ++ plaintext)
  verify plaintext hash :=
    decide (hash = "m=19456$" ++ plaintext) || decide (hash = "m=4096$" ++ plaintext)
  needsRehash hash := decide (hash.toList.take 7 = "m=4096$".toList)

/-- The owner of the sample account. -/
def sampleOwner : User where
  id := "0a1f3c52-77c4-4f0a-9b2e-5d7f6f0c1b11"
  email := ⟨"ada@example.com", by decide +kernel⟩
  displayName := "Ada"
  status := .active
  createdAt := 1767225600000
  updatedAt := 1767225600000

/-- The credential of the sample account, with a stale hash. -/
def sampleCredential : Credential :=
  Credential.create "5f0f2f0e-8f3c-4d2b-8a57-2f4f0e1f9c22" sampleOwner.id
    "m=4096$correct horse battery" 1767225600000

/-- The raw reset token that was sent to the owner; the sample digest of a token is the token. -/
def sampleLink : String := "6c1d9f"

/-- The reset token of the sample account. -/
def sampleResetToken : PasswordResetToken where
  id := "b6b6d1f0-0c35-4f63-9a51-3f7f4f7b4d33"
  userId := sampleOwner.id
  tokenHash := sampleLink
  expiresAt := 1767312000000
  consumedAt := none
  createdAt := 1767225600000

/-- The store of the sample account. -/
def sampleAccount : CredentialStore :=
  .fresh (KeyedMap.empty.put sampleOwner) (KeyedMap.empty.put sampleCredential)
    (KeyedMap.empty.put sampleResetToken)

/-- How the sample account is served. -/
def sampleAccountDeployment : CredentialDeployment where
  hasher := sampleHasher
  rateLimiter := .noop 1767225600000
  sha256 := id
  toLowerCase := String.toLower

/-- A hash verifies the password it was made from, and no other. -/
theorem sampleHasher_verifiesExactly : sampleHasher.VerifiesExactly := by
  intro plaintext hash hhashes candidate
  obtain rfl : hash = "m=19456$" ++ plaintext := by simpa [sampleHasher] using hhashes
  have hstale : "m=19456$" ++ plaintext ≠ "m=4096$" ++ candidate := by
    intro h
    have hlists := congrArg String.toList h
    simp at hlists
  simp [sampleHasher, hstale, eq_comm]

/-- Events of the use cases. -/
abbrev CredentialSchedule := List (PoolEvent CredentialCommand CredentialInput)

/-- Thread `i` presents the sample link and finds it usable. -/
def resetReading (i : ℕ) (newPassword : String) (now : ℤ) : CredentialSchedule :=
  [.start i (.confirmPasswordReset ⟨sampleLink, newPassword⟩), .answer i .served,
    .answer i (.time now), .answer i (.text ("m=19456$" ++ newPassword)), .answer i .served,
    .answer i .served, .answer i .served]

/-- Thread `i` consumes the link, checks so many known hashes, and replaces the password. -/
def resetWriting (i known : ℕ) (now : ℤ) : CredentialSchedule :=
  [.answer i .served, .answer i .served] ++ List.replicate known (.answer i .served) ++
    [.answer i (.time now), .answer i .served, .answer i .served, .answer i .served,
      .answer i .served]

/-- Thread `i` logs in with a password that its transaction finds right, up to the upgrade of the
hash. -/
def loginVerifying (i : ℕ) (password : String) (now : ℤ) : CredentialSchedule :=
  [.start i (.authenticateWithPassword ⟨"ada@example.com", password⟩), .answer i .served,
    .answer i (.time now)] ++ List.replicate 6 (.answer i .served)

/-- Thread `i` upgrades a stale hash. -/
def loginUpgrading (i : ℕ) (password : String) (now : ℤ) : CredentialSchedule :=
  [.answer i (.text ("m=19456$" ++ password)), .answer i (.time now), .answer i .served,
    .answer i .served, .answer i .served]

/-- Thread `i` logs in, up to the look at the credential. -/
def loginReading (i : ℕ) (password : String) (now : ℤ) : CredentialSchedule :=
  [.start i (.authenticateWithPassword ⟨"ada@example.com", password⟩), .answer i .served,
    .answer i (.time now)] ++ List.replicate 3 (.answer i .served)

/-- Thread `i` logs in with a wrong password. -/
def loginFailing (i : ℕ) (password : String) (now : ℤ) : CredentialSchedule :=
  loginReading i password now ++ List.replicate 4 (.answer i .served)

/-- A reset of the sample password while nothing else happens. -/
example : ((exec sampleAccountDeployment.step (Pool.initial sampleAccount)
    (resetReading 0 "a whole new password" 1767229200000 ++
      resetWriting 0 1 1767229200000)).bind fun P => P.returned 0) =
    some ⟨.confirmPasswordReset ⟨sampleLink, "a whole new password"⟩, .ok (.ok ⟨sampleOwner⟩)⟩ := by
  decide +kernel

end Verixa
