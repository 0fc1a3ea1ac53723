import Verixa.Identity.User
import Verixa.SharedKernel.RateLimiting

/-!
# Credentials and password reset tokens

A credential is how a user proves who they are: the hash of the current password, those of the
passwords before it, and a count of consecutive failures.  A password reset token is the authority
to set a new password without knowing the old one.  Both are values: what changes them returns a
new one.
-/

namespace Verixa

open Encoding

/-! ## Policies -/

/-- How many consecutive failures are tolerated, and how long a lock lasts. -/
abbrev LockoutPolicy := BackoffCurve

/-- Five attempts, and a short first lock. -/
def DEFAULT_LOCKOUT_POLICY : LockoutPolicy where
  threshold := 5
  baseDurationMs := 60000
  backoffFactor := 2
  maxDurationMs := 3600000

/-- How long a lock lasts after so many consecutive failures. -/
def lockDurationMs (failedAttempts : ℕ) (policy : LockoutPolicy) : ℤ :=
  policy.lockDurationMs failedAttempts

/-- How many previous passwords are stored and checked for reuse. -/
structure PasswordHistoryPolicy where
  depth : ℕ
  deriving DecidableEq

/-- The last five. -/
def DEFAULT_PASSWORD_HISTORY_POLICY : PasswordHistoryPolicy := ⟨5⟩

/-- How long a password must be and may be. -/
structure PasswordPolicy where
  minLength : ℕ
  maxLength : ℕ
  deriving DecidableEq

/-- Twelve characters at least. -/
def DEFAULT_PASSWORD_POLICY : PasswordPolicy := ⟨12, 256⟩

/-- A plaintext password that meets a policy. -/
structure RawPassword (policy : PasswordPolicy) where
  value : String
  longEnough : policy.minLength ≤ utf16Length value
  shortEnough : utf16Length value ≤ policy.maxLength

namespace RawPassword

/-- Checks the length of a password, which is not trimmed. -/
def create (policy : PasswordPolicy) (plaintext : String) :
    Except ValidationError (RawPassword policy) :=
  if hmin : utf16Length plaintext < policy.minLength then
    .error ⟨"Password must be at least " ++ Nat.repr policy.minLength ++ " characters.",
      [("password", ["too_short"])]⟩
  else if hmax : policy.maxLength < utf16Length plaintext then
    .error ⟨"Password must be at most " ++ Nat.repr policy.maxLength ++ " characters.",
      [("password", ["too_long"])]⟩
  else .ok ⟨plaintext, not_lt.mp hmin, not_lt.mp hmax⟩

/-- The plaintext. -/
def reveal {policy : PasswordPolicy} (password : RawPassword policy) : String := password.value

/-- A password of a length that the policy allows is accepted. -/
theorem create_of_length {policy : PasswordPolicy} {plaintext : String}
    (hmin : policy.minLength ≤ utf16Length plaintext)
    (hmax : utf16Length plaintext ≤ policy.maxLength) :
    create policy plaintext = .ok ⟨plaintext, hmin, hmax⟩ := by
  rw [create, dif_neg (not_lt.mpr hmin), dif_neg (not_lt.mpr hmax)]

/-- What a password reveals is what it was created from. -/
theorem reveal_of_create {policy : PasswordPolicy} {plaintext : String}
    {password : RawPassword policy} (h : create policy plaintext = .ok password) :
    password.reveal = plaintext := by
  unfold create at h
  split at h
  · cases h
  · split at h
    · cases h
    · cases h
      rfl

/-- A rejected password is rejected for its length, in the field `password`. -/
theorem fieldErrors_of_create {policy : PasswordPolicy} {plaintext : String}
    {error : ValidationError} (h : create policy plaintext = .error error) :
    error.fieldErrors = [("password", ["too_short"])] ∨
      error.fieldErrors = [("password", ["too_long"])] := by
  unfold create at h
  split at h
  · cases h
    exact .inl rfl
  · split at h
    · cases h
      exact .inr rfl
    · cases h

end RawPassword

/-! ## Credentials -/

/-- The password credential of a user. -/
structure Credential where
  id : String
  userId : String
  passwordHash : String
  failedAttempts : ℕ
  lockedUntil : Option ℤ
  passwordHistory : List String
  createdAt : ℤ
  updatedAt : ℤ
  deriving DecidableEq

namespace Credential

/-- A new credential; `id` is what `createId` returns. -/
def create (id userId passwordHash : String) (now : ℤ) : Credential where
  id := id
  userId := userId
  passwordHash := passwordHash
  failedAttempts := 0
  lockedUntil := none
  passwordHistory := []
  createdAt := now
  updatedAt := now

/-- Replaces the stored hash, and clears the lockout. -/
def withPasswordHash (credential : Credential) (passwordHash : String) (now : ℤ) : Credential :=
  { credential with
    passwordHash := passwordHash
    failedAttempts := 0
    lockedUntil := none
    updatedAt := now }

/-- Whether the credential is locked. -/
def isLockedAt (credential : Credential) (now : ℤ) : Bool :=
  credential.lockedUntil.any fun time => decide (now < time)

/-- Records one failed attempt; from the threshold of the policy on this locks the credential. -/
def recordFailedAttempt (credential : Credential) (policy : LockoutPolicy) (now : ℤ) :
    Credential :=
  let failedAttempts := credential.failedAttempts + 1
  let duration := lockDurationMs failedAttempts policy
  { credential with
    failedAttempts := failedAttempts
    lockedUntil := if duration = 0 then credential.lockedUntil else some (now + duration)
    updatedAt := now }

/-- There is nothing that a successful attempt would clear. -/
def isClear (credential : Credential) : Bool :=
  decide (credential.failedAttempts = 0) && credential.lockedUntil.isNone

/-- Clears the failures and the lock; the same credential if there is nothing to clear. -/
def recordSuccessfulAttempt (credential : Credential) (now : ℤ) : Credential :=
  if credential.isClear then credential
  else { credential with failedAttempts := 0, lockedUntil := none, updatedAt := now }

/-- The hashes of the current password and of those before it. -/
def knownHashes (credential : Credential) : List String :=
  credential.passwordHash :: credential.passwordHistory

/-- Whether one of the known hashes verifies the candidate. -/
def IsReused (verify : String → String → Bool) (credential : Credential) (candidate : String) :
    Prop :=
  ∃ hash ∈ credential.knownHashes, verify candidate hash = true

instance (verify : String → String → Bool) (credential : Credential) (candidate : String) :
    Decidable (credential.IsReused verify candidate) :=
  inferInstanceAs (Decidable (∃ hash ∈ credential.knownHashes, verify candidate hash = true))

/-- Pushes the current hash to the history, which is capped, and sets a new one. -/
def rotatePassword (credential : Credential) (newPasswordHash : String)
    (historyPolicy : PasswordHistoryPolicy) (now : ℤ) : Credential :=
  { credential with
    passwordHash := newPasswordHash
    passwordHistory := credential.knownHashes.take historyPolicy.depth
    failedAttempts := 0
    lockedUntil := none
    updatedAt := now }

section

variable (credential : Credential) (policy : LockoutPolicy) (now : ℤ)

@[simp] theorem userId_recordFailedAttempt :
    (credential.recordFailedAttempt policy now).userId = credential.userId := rfl

@[simp] theorem passwordHash_recordFailedAttempt :
    (credential.recordFailedAttempt policy now).passwordHash = credential.passwordHash := rfl

@[simp] theorem failedAttempts_recordFailedAttempt :
    (credential.recordFailedAttempt policy now).failedAttempts =
      credential.failedAttempts + 1 := rfl

@[simp] theorem updatedAt_recordFailedAttempt :
    (credential.recordFailedAttempt policy now).updatedAt = now := rfl

/-- The attempt that reaches the threshold locks the credential. -/
theorem isLockedAt_recordFailedAttempt (hbase : 0 < policy.baseDurationMs)
    (hfactor : 0 < policy.backoffFactor) (hmax : 0 < policy.maxDurationMs)
    (h : policy.threshold ≤ credential.failedAttempts + 1) :
    (credential.recordFailedAttempt policy now).isLockedAt now = true := by
  have hpos : 0 < lockDurationMs (credential.failedAttempts + 1) policy :=
    BackoffCurve.lockDurationMs_pos hbase hfactor hmax h
  simp [recordFailedAttempt, isLockedAt, hpos, ne_of_gt hpos]

@[simp] theorem userId_recordSuccessfulAttempt :
    (credential.recordSuccessfulAttempt now).userId = credential.userId := by
  unfold recordSuccessfulAttempt
  split <;> rfl

@[simp] theorem passwordHash_recordSuccessfulAttempt :
    (credential.recordSuccessfulAttempt now).passwordHash = credential.passwordHash := by
  unfold recordSuccessfulAttempt
  split <;> rfl

@[simp] theorem userId_withPasswordHash (hash : String) :
    (credential.withPasswordHash hash now).userId = credential.userId := rfl

@[simp] theorem passwordHash_withPasswordHash (hash : String) :
    (credential.withPasswordHash hash now).passwordHash = hash := rfl

@[simp] theorem userId_rotatePassword (hash : String) (historyPolicy : PasswordHistoryPolicy) :
    (credential.rotatePassword hash historyPolicy now).userId = credential.userId := rfl

@[simp] theorem passwordHash_rotatePassword (hash : String)
    (historyPolicy : PasswordHistoryPolicy) :
    (credential.rotatePassword hash historyPolicy now).passwordHash = hash := rfl

end

end Credential

/-! ## Password reset tokens -/

/-- The bytes of a text of hexadecimal digits, up to the first pair that is not one of these. -/
def bytesOfHex : List Char → List ℕ
  | high :: low :: rest =>
    match hexValue high, hexValue low with
    | some a, some b => (16 * a + b) :: bytesOfHex rest
    | _, _ => []
  | _ => []
where
  /-- The value of a hexadecimal digit. -/
  hexValue (c : Char) : Option ℕ :=
    if '0' ≤ c ∧ c ≤ '9' then some (c.toNat - '0'.toNat)
    else if 'a' ≤ c ∧ c ≤ 'f' then some (c.toNat - 'a'.toNat + 10)
    else if 'A' ≤ c ∧ c ≤ 'F' then some (c.toNat - 'A'.toNat + 10)
    else none

/-- The only form in which a raw token is stored or looked up. -/
def hashToken (sha256 : String → String) (token : String) : String := sha256 token

/-- Whether the token has the digest; both are compared as bytes. -/
def tokenMatchesDigest (sha256 : String → String) (token digest : String) : Bool :=
  decide (bytesOfHex (hashToken sha256 token).toList = bytesOfHex digest.toList)

/-- The authority to set a new password. -/
structure PasswordResetToken where
  id : String
  userId : String
  tokenHash : String
  expiresAt : ℤ
  consumedAt : Option ℤ
  createdAt : ℤ
  deriving DecidableEq

namespace PasswordResetToken

/-- Whether the candidate is the raw token this was issued with. -/
def matchesToken (sha256 : String → String) (token : PasswordResetToken) (candidate : String) :
    Bool :=
  tokenMatchesDigest sha256 candidate token.tokenHash

/-- A token matches what has its digest. -/
theorem matchesToken_of_tokenHash {sha256 : String → String} {token : PasswordResetToken}
    {candidate : String} (h : token.tokenHash = hashToken sha256 candidate) :
    token.matchesToken sha256 candidate = true := by
  simp [matchesToken, tokenMatchesDigest, h]

def isExpiredAt (token : PasswordResetToken) (now : ℤ) : Bool := decide (token.expiresAt ≤ now)

/-- The token was redeemed or retired. -/
def isConsumed (token : PasswordResetToken) : Bool := token.consumedAt.isSome

/-- Marks the token used, unless it has been used or has expired. -/
def consume (token : PasswordResetToken) (now : ℤ) : Except ValidationError PasswordResetToken :=
  if token.isConsumed then
    .error ⟨"This reset link has already been used.", [("token", ["already_used"])]⟩
  else if token.isExpiredAt now then
    .error ⟨"This reset link has expired.", [("token", ["expired"])]⟩
  else .ok { token with consumedAt := some now }

/-- A token that was consumed now was usable, and differs in nothing else. -/
theorem consume_eq_ok {token consumed : PasswordResetToken} {now : ℤ}
    (h : token.consume now = .ok consumed) :
    token.isConsumed = false ∧ token.isExpiredAt now = false ∧
      consumed = { token with consumedAt := some now } := by
  unfold consume at h
  split at h
  · cases h
  · rename_i hconsumed
    split at h
    · cases h
    · rename_i hexpired
      cases h
      exact ⟨by simpa using hconsumed, by simpa using hexpired, rfl⟩

end PasswordResetToken

end Verixa
