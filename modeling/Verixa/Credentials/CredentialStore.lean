import Verixa.Collections.KeyedMap
import Verixa.Concurrency.Program
import Verixa.Credentials.Credential

/-!
# The credential store and the calls made to it

What the password use cases work on: the in-memory repositories of a unit of work, the calls that
a rate limiter counts, and the records of a brute-force policy.  The repositories take each call
as a step of its own.  That a transaction is running is remembered, so that it can be said of a
run that transactions are atomic; nothing is rolled back.

A journal is kept for what is said about runs, and read by nothing else: what each thread has
found, compared and written.
-/

namespace Verixa

open Concurrency

/-! ## Hashing -/

/-- A password hasher.  `hashes plaintext hash` says that hashing the one can give the other, which
salts make many. -/
structure PasswordHasher where
  hashes : String → String → Bool
  verify : String → String → Bool
  needsRehash : String → Bool

/-- A hash verifies the password it was made from, and no other. -/
def PasswordHasher.VerifiesExactly (hasher : PasswordHasher) : Prop :=
  ∀ plaintext hash, hasher.hashes plaintext hash = true →
    ∀ candidate, hasher.verify candidate hash = true ↔ candidate = plaintext

/-! ## The store -/

/-- Which use case finds or saves a credential, and for a reset the digest of the link that was
presented.  Only the journal keeps it. -/
inductive CredentialUseCase where
  | authenticateWithPassword
  | confirmPasswordReset (tokenHash : String)
  | changePassword
  deriving DecidableEq

/-- Something a call has found, compared or written. -/
inductive CredentialDeed where
  | foundCredential (useCase : CredentialUseCase) (credential : Credential)
  | wroteCredential (useCase : CredentialUseCase) (before : Option Credential) (after : Credential)
  | foundResetToken (token : PasswordResetToken)
  | wroteResetToken (before : Option PasswordResetToken) (after : PasswordResetToken)
  | compared (plaintext hash : String)
  deriving DecidableEq

/-- What the use cases work on. -/
structure CredentialStore where
  usersById : KeyedMap User.id
  credentialsByUserId : KeyedMap Credential.userId
  passwordResetTokensById : KeyedMap PasswordResetToken.id
  rateLimiterCalls : RateLimitKey → List RateLimiterCall
  attemptRecords : String → AttemptRecord
  /-- The threads whose transactions are running. -/
  openTransactions : List ℕ
  journal : List (ℕ × CredentialDeed)

/-! ## Calls -/

/-- How strictly a second factor is asked for. -/
inductive MfaEnforcementLevel where
  | required
  | optional
  | disabled
  deriving DecidableEq

/-- What the login learns of an active second factor. -/
structure MfaMethodSummary where
  id : String
  type : String
  deriving DecidableEq

/-- A call made by a use case.  `begin` and `finish` are the ends of `unitOfWork.run`. -/
inductive CredentialRequest where
  | begin
  | finish
  | now
  | createId
  | checkRateLimit (key : RateLimitKey)
  | recordRateLimitFailure (key : RateLimitKey)
  | resetRateLimit (key : RateLimitKey)
  | checkAttemptLimit (key : RateLimitKey)
  | readAttempts (key : String)
  | recordAttempt (key : String) (lockedUntil : Option ℤ)
  | clearAttempts (key : String)
  | burnTime (candidate : String)
  | hash (plaintext : String)
  | verify (plaintext hash : String)
  | findUserByEmail (email : Email)
  | findUserById (id : String)
  | findCredentialByUserId (useCase : CredentialUseCase) (userId : String)
  | saveCredential (useCase : CredentialUseCase) (credential : Credential)
  | findResetTokenByHash (tokenHash : String)
  | saveResetToken (token : PasswordResetToken)
  | revokeAllForUser (userId : String)
  | resolvePolicy (userId : String)
  | listActiveMethods (userId : String)
  deriving DecidableEq

/-- What a call is answered with.  A hash that could not be made, and sessions that could not be
revoked, are answers too. -/
def CredentialRequest.Answer : CredentialRequest → Type
  | .now => ℤ
  | .createId => String
  | .checkRateLimit _ => RateLimitResult
  | .checkAttemptLimit _ => Option RateLimitResult
  | .readAttempts _ => AttemptRecord
  | .hash _ => Option String
  | .verify _ _ | .revokeAllForUser _ => Bool
  | .findUserByEmail _ | .findUserById _ => Option User
  | .findCredentialByUserId _ _ => Option Credential
  | .findResetTokenByHash _ => Option PasswordResetToken
  | .resolvePolicy _ => MfaEnforcementLevel
  | .listActiveMethods _ => List MfaMethodSummary
  | .begin | .finish | .recordRateLimitFailure _ | .resetRateLimit _ | .recordAttempt _ _
  | .clearAttempts _ | .burnTime _ | .saveCredential _ _ | .saveResetToken _ => Unit

/-- A program over these calls. -/
abbrev CredentialProgram := Program CredentialRequest CredentialRequest.Answer

/-- What the outside adds to a call. -/
inductive CredentialInput where
  | served
  | failed
  | time (t : ℤ)
  | text (value : String)
  | level (level : MfaEnforcementLevel)
  | methods (methods : List MfaMethodSummary)
  deriving DecidableEq

/-- What the calls are answered by, besides the store. -/
structure CredentialServices where
  hasher : PasswordHasher
  rateLimiter : RateLimiter
  bruteForce : Option BruteForcePolicy := none

namespace CredentialStore

/-- The store of a deployment that has these users, credentials and tokens, and in which nothing
has happened. -/
def fresh (usersById : KeyedMap User.id) (credentialsByUserId : KeyedMap Credential.userId)
    (passwordResetTokensById : KeyedMap PasswordResetToken.id) : CredentialStore where
  usersById := usersById
  credentialsByUserId := credentialsByUserId
  passwordResetTokensById := passwordResetTokensById
  rateLimiterCalls _ := []
  attemptRecords _ := {}
  openTransactions := []
  journal := []

/-- Add a deed to the journal. -/
def note (s : CredentialStore) (i : ℕ) (deed : CredentialDeed) : CredentialStore :=
  { s with journal := (i, deed) :: s.journal }

/-- The deeds of a thread, the latest first. -/
def deedsOf (s : CredentialStore) (i : ℕ) : List CredentialDeed :=
  (s.journal.filter fun p => p.1 = i).map Prod.snd

/-- `InMemoryUserRepository.findById`. -/
def findUserById (s : CredentialStore) (id : String) : Option User :=
  (s.usersById.get? id).filter fun user => !user.isDeleted

/-- `InMemoryUserRepository.findByEmail`. -/
def findUserByEmail (s : CredentialStore) (email : Email) : Option User :=
  s.usersById.values.find? fun user => decide (user.email.value = email.value) && !user.isDeleted

/-- `InMemoryTokenStore.findByTokenHash`. -/
def findResetTokenByHash (s : CredentialStore) (tokenHash : String) : Option PasswordResetToken :=
  s.passwordResetTokensById.values.find? fun token => decide (token.tokenHash = tokenHash)

/-- `InMemoryCredentialRepository.save`. -/
def saveCredential (s : CredentialStore) (i : ℕ) (useCase : CredentialUseCase)
    (credential : Credential) : CredentialStore :=
  { s with credentialsByUserId := s.credentialsByUserId.put credential }.note i
    (.wroteCredential useCase (s.credentialsByUserId.get? credential.userId) credential)

/-- `InMemoryTokenStore.save`. -/
def saveResetToken (s : CredentialStore) (i : ℕ) (token : PasswordResetToken) : CredentialStore :=
  { s with passwordResetTokensById := s.passwordResetTokensById.put token }.note i
    (.wroteResetToken (s.passwordResetTokensById.get? token.id) token)

/-- The limiter counts a call. -/
def countCall (s : CredentialStore) (key : RateLimitKey) (call : RateLimiterCall) :
    CredentialStore :=
  { s with rateLimiterCalls :=
      Function.update s.rateLimiterCalls key (s.rateLimiterCalls key ++ [call]) }

/-- The record of a key is replaced. -/
def setAttempts (s : CredentialStore) (key : String) (record : AttemptRecord) : CredentialStore :=
  { s with attemptRecords := Function.update s.attemptRecords key record }

/-- Finding something is a deed. -/
def noteFound {α : Type} (s : CredentialStore) (i : ℕ) (deed : α → CredentialDeed) :
    Option α → CredentialStore
  | some found => s.note i (deed found)
  | none => s

/-- How a call of thread `i` is answered. -/
def serve (D : CredentialServices) :
    Server CredentialStore CredentialInput CredentialRequest CredentialRequest.Answer
  | i, s, .begin, .served => some ((), { s with openTransactions := i :: s.openTransactions })
  | i, s, .finish, .served =>
    some ((), { s with openTransactions := s.openTransactions.filter fun j => j ≠ i })
  | _, s, .now, .time t => some (t, s)
  | _, s, .createId, .text id => some (id, s)
  | _, s, .checkRateLimit key, .served => some (D.rateLimiter.check key (s.rateLimiterCalls key), s)
  | _, s, .recordRateLimitFailure key, .served => some ((), s.countCall key .recordFailure)
  | _, s, .resetRateLimit key, .served => some ((), s.countCall key .reset)
  | _, s, .checkAttemptLimit key, .served =>
    some ((D.bruteForce.bind BruteForcePolicy.limiter).map fun limiter =>
      limiter.check key (s.rateLimiterCalls key), s)
  | _, s, .readAttempts key, .served => some (s.attemptRecords key, s)
  | _, s, .recordAttempt key lockedUntil, .served =>
    some ((), s.setAttempts key ⟨(s.attemptRecords key).failedAttempts + 1, lockedUntil⟩)
  | _, s, .clearAttempts key, .served => some ((), s.setAttempts key {})
  | _, s, .burnTime _, .served => some ((), s)
  | _, s, .hash plaintext, .text hash =>
    if D.hasher.hashes plaintext hash = true then some (some hash, s) else none
  | _, s, .hash _, .failed => some (none, s)
  | i, s, .verify plaintext hash, .served =>
    some (D.hasher.verify plaintext hash, s.note i (.compared plaintext hash))
  | _, s, .findUserByEmail email, .served => some (s.findUserByEmail email, s)
  | _, s, .findUserById id, .served => some (s.findUserById id, s)
  | i, s, .findCredentialByUserId useCase userId, .served =>
    some (s.credentialsByUserId.get? userId,
      s.noteFound i (.foundCredential useCase) (s.credentialsByUserId.get? userId))
  | i, s, .saveCredential useCase credential, .served =>
    some ((), s.saveCredential i useCase credential)
  | i, s, .findResetTokenByHash tokenHash, .served =>
    some (s.findResetTokenByHash tokenHash,
      s.noteFound i .foundResetToken (s.findResetTokenByHash tokenHash))
  | i, s, .saveResetToken token, .served => some ((), s.saveResetToken i token)
  | _, s, .revokeAllForUser _, .served => some (true, s)
  | _, s, .revokeAllForUser _, .failed => some (false, s)
  | _, s, .resolvePolicy _, .level level => some (level, s)
  | _, s, .listActiveMethods _, .methods methods => some (methods, s)
  | _, _, _, _ => none

end CredentialStore

end Verixa
