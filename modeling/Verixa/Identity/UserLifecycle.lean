import Verixa.Collections.OrderedMap
import Verixa.Credentials.Credential

/-!
# The lifecycle of a user

A user as its own context sees it: the names, the status and its table of transitions, and the
events of the action that made the instance.  With it stand the tokens by which a user confirms an
email address.
-/

namespace Verixa.Identity

open Encoding

/-! ## Names -/

/-- A validated display name. -/
structure DisplayName where
  value : String
  deriving DecidableEq

/-- Trims and checks a display name. -/
def DisplayName.create (raw : String) : Except ValidationError DisplayName :=
  let normalized := trim raw
  if utf16Length normalized < 1 then
    .error ⟨"Display name is required.", [("displayName", ["required"])]⟩
  else if 64 < utf16Length normalized then
    .error ⟨"Display name must be at most 64 characters.", [("displayName", ["too_long"])]⟩
  else .ok ⟨normalized⟩

/-- The name of a person. -/
structure PersonName where
  givenName : String
  familyName : Option String
  deriving DecidableEq

/-- Trims and checks the parts of a name. -/
def PersonName.create (givenName : String) (familyName : Option String) :
    Except ValidationError PersonName :=
  let normalizedGiven := trim givenName
  let normalizedFamily := familyName.map trim
  let fieldErrors :=
    (if utf16Length normalizedGiven = 0 then [("givenName", ["required"])]
      else if 128 < utf16Length normalizedGiven then [("givenName", ["too_long"])] else []) ++
    (if normalizedFamily.any fun family => Decidable.decide (128 < utf16Length family) then
      [("familyName", ["too_long"])] else [])
  if fieldErrors ≠ [] then .error ⟨"Person name is invalid.", fieldErrors⟩
  else .ok ⟨normalizedGiven, normalizedFamily.filter fun family => family ≠ ""⟩

/-- Adds the errors of one check to those found so far, field by field. -/
def mergeFieldErrors (found fieldErrors : List (String × List String)) :
    List (String × List String) :=
  fieldErrors.foldl (fun found error =>
    OrderedMap.upsertEntry error.1
      ((OrderedMap.lookupEntry error.1 found).getD [] ++ error.2) found) found

/-! ## Statuses -/

/-- The text of a status. -/
def statusText : UserStatus → String
  | .pending => "pending"
  | .active => "active"
  | .suspended => "suspended"
  | .deleted => "deleted"

/-- `ALLOWED_TRANSITIONS`. -/
def allowedTransitions : UserStatus → List UserStatus
  | .pending => [.active, .deleted]
  | .active => [.suspended, .deleted]
  | .suspended => [.active, .deleted]
  | .deleted => []

/-! ## Users -/

/-- An event that a user records. -/
inductive UserEvent where
  | registered (userId email : String)
  | statusChanged (userId : String) (previousStatus newStatus : UserStatus)
      (reason : Option String)
  | profileUpdated (userId : String)
  deriving DecidableEq

/-- A user, with what only its own context sees. -/
structure User where
  id : String
  email : Email
  displayName : DisplayName
  personName : Option PersonName
  status : UserStatus
  createdAt : ℤ
  updatedAt : ℤ
  deletedAt : Option ℤ := none
  domainEvents : List UserEvent := []
  deriving DecidableEq

namespace User

/-- A new user; `id` and `now` are what is made for it. -/
def register (email : Email) (displayName : DisplayName) (personName : Option PersonName)
    (id : String) (now : ℤ) : User :=
  { id := id, email := email, displayName := displayName, personName := personName,
    status := .pending, createdAt := now, updatedAt := now,
    domainEvents := [.registered id email.value] }

/-- Moves to the next status, if that is allowed; `now` is what the clock shows then. -/
def transitionTo (user : User) (next : UserStatus) (reason : Option String) (now : ℤ) :
    Except ValidationError User :=
  if !(allowedTransitions user.status).contains next then
    .error ⟨"Cannot transition user from \"" ++ statusText user.status ++ "\" to \"" ++
      statusText next ++ "\".",
      [("status", ["invalid_transition_from_" ++ statusText user.status])]⟩
  else .ok { user with
    status := next, updatedAt := now,
    domainEvents := [.statusChanged user.id user.status next reason] }

/-- Makes a pending or suspended user active. -/
def activate (user : User) (reason : Option String) (now : ℤ) : Except ValidationError User :=
  user.transitionTo .active reason now

/-- Suspends an active user. -/
def suspend (user : User) (reason : Option String) (now : ℤ) : Except ValidationError User :=
  user.transitionTo .suspended reason now

/-- Changes the names. -/
def updateProfile (user : User) (displayName : DisplayName) (personName : Option PersonName)
    (now : ℤ) : User :=
  { user with
    displayName := displayName, personName := personName, updatedAt := now,
    domainEvents := [.profileUpdated user.id] }

/-- The user was soft-deleted. -/
def isDeleted (user : User) : Bool := Decidable.decide (user.status = .deleted)

/-- What moves on had a status from which that is allowed, and stays the same user. -/
theorem transitionTo_ok {user next : User} {status : UserStatus} {reason : Option String} {now : ℤ}
    (h : user.transitionTo status reason now = .ok next) :
    status ∈ allowedTransitions user.status ∧ next.id = user.id ∧ next.status = status := by
  unfold transitionTo at h
  split at h <;> cases h
  rename_i hallowed
  exact ⟨by simpa using hallowed, rfl, rfl⟩

end User

/-! ## Tokens -/

/-- A token sent to an email address, of which only the digest is stored. -/
structure EmailVerificationToken where
  id : String
  userId : String
  tokenHash : String
  expiresAt : ℤ
  consumedAt : Option ℤ
  createdAt : ℤ
  deriving DecidableEq

namespace EmailVerificationToken

/-- A day. -/
def DEFAULT_TTL_MS : ℤ := 24 * 60 * 60 * 1000

/-- Issues a token; `id` and `rawToken` are what is made for it. -/
def issue (sha256 : String → String) (userId : String) (ttlMs : Option ℤ) (now : ℤ)
    (id rawToken : String) : EmailVerificationToken :=
  { id := id, userId := userId, tokenHash := hashToken sha256 rawToken,
    expiresAt := now + ttlMs.getD DEFAULT_TTL_MS, consumedAt := none, createdAt := now }

/-- Whether the candidate is the raw token this was issued with. -/
def matchesToken (sha256 : String → String) (token : EmailVerificationToken)
    (candidate : String) : Bool :=
  tokenMatchesDigest sha256 candidate token.tokenHash

def isExpiredAt (token : EmailVerificationToken) (now : ℤ) : Bool :=
  Decidable.decide (token.expiresAt ≤ now)

/-- The token was redeemed or retired. -/
def isConsumed (token : EmailVerificationToken) : Bool := token.consumedAt.isSome

/-- Retires the token, however it stands. -/
def invalidate (token : EmailVerificationToken) (now : ℤ) : EmailVerificationToken :=
  if token.isConsumed then token else { token with consumedAt := some now }

/-- Marks the token used, unless it has been used or has expired. -/
def consume (token : EmailVerificationToken) (now : ℤ) :
    Except ValidationError EmailVerificationToken :=
  if token.isConsumed then
    .error ⟨"This verification link has already been used.", [("token", ["already_used"])]⟩
  else if token.isExpiredAt now then
    .error ⟨"This verification link has expired.", [("token", ["expired"])]⟩
  else .ok { token with consumedAt := some now }

/-- A token that was consumed now was usable, and differs in nothing else. -/
theorem consume_ok {token consumed : EmailVerificationToken} {now : ℤ}
    (h : token.consume now = .ok consumed) :
    token.consumedAt = none ∧ consumed = { token with consumedAt := some now } := by
  unfold consume at h
  split at h
  · cases h
  · rename_i hconsumed
    split at h <;> cases h
    exact ⟨by simpa [isConsumed] using hconsumed, rfl⟩

@[simp] theorem id_invalidate (token : EmailVerificationToken) (now : ℤ) :
    (token.invalidate now).id = token.id := by
  unfold invalidate
  split <;> rfl

@[simp] theorem userId_invalidate (token : EmailVerificationToken) (now : ℤ) :
    (token.invalidate now).userId = token.userId := by
  unfold invalidate
  split <;> rfl

/-- A retired token is one that was consumed. -/
theorem consumedAt_invalidate (token : EmailVerificationToken) (now : ℤ) :
    (token.invalidate now).consumedAt ≠ none := by
  unfold invalidate
  split
  · rename_i hconsumed
    simpa [isConsumed, Option.isSome_iff_ne_none] using hconsumed
  · simp

end EmailVerificationToken

end Verixa.Identity
