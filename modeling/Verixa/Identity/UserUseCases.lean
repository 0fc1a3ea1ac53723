import Verixa.Collections.KeyedMap
import Verixa.Concurrency.Program
import Verixa.Identity.UserLifecycle

/-!
# The use cases that write users

Users are registered, confirm their email address, are suspended, reactivated, and edit their
profile.  Each use case finds a user, makes a new instance of it and saves that as a whole in a
later call.  The repositories are those in memory; a unit of work runs its body on them and does not
roll back.

A save names the use case that makes it and the status in which it has found the user.  This and the
journal of the saves are kept for what is said about runs, and read by nothing else.
-/

namespace Verixa.Identity

open Concurrency Encoding

/-! ## The store and its calls -/

/-- A use case that saves users. -/
inductive UserUseCase where
  | registerUser
  | confirmEmailVerification
  | suspendUser
  | reactivateUser
  | updateUserProfile
  deriving DecidableEq

/-- A save of a user: who made it, the status stored immediately before, and the one after. -/
structure UserSave where
  useCase : UserUseCase
  userId : String
  previousStatus : Option UserStatus
  status : UserStatus
  deriving DecidableEq

/-- The users, the tokens, and the saves of users, the latest first. -/
structure UserStore where
  usersById : KeyedMap User.id
  tokensById : KeyedMap EmailVerificationToken.id
  journal : List UserSave

/-- A call made by the use cases. -/
inductive UserCall where
  | now
  | createId
  | generateToken
  | findUserById (id : String)
  | findUserByEmail (email : Email)
  | existsByEmail (email : Email)
  | saveUser (useCase : UserUseCase) (found : Option UserStatus) (user : User)
  | findTokenByHash (tokenHash : String)
  | saveToken (token : EmailVerificationToken)
  | invalidateOutstandingForUser (userId : String) (now : ℤ)
  | sendEmailVerification (email rawToken : String) (expiresAt : ℤ)
  deriving DecidableEq

/-- What a call is answered with; a delivery says whether it succeeded. -/
def UserCall.Answer : UserCall → Type
  | .now => ℤ
  | .createId => String
  | .generateToken => String
  | .findUserById _ => Option User
  | .findUserByEmail _ => Option User
  | .existsByEmail _ => Bool
  | .saveUser _ _ _ => Unit
  | .findTokenByHash _ => Option EmailVerificationToken
  | .saveToken _ => Unit
  | .invalidateOutstandingForUser _ _ => Unit
  | .sendEmailVerification _ _ _ => Bool

/-- A program over these calls. -/
abbrev UserProgram := Program UserCall UserCall.Answer

/-- What the outside adds to a call. -/
inductive UserInput where
  | served
  | time (t : ℤ)
  | text (value : String)
  | delivered (succeeded : Bool)
  deriving DecidableEq

namespace UserStore

/-- The store in which nothing has happened. -/
def empty : UserStore := ⟨KeyedMap.empty, KeyedMap.empty, []⟩

/-- `users.findById`, which passes over deleted users. -/
def findUserById (s : UserStore) (id : String) : Option User :=
  (s.usersById.get? id).filter fun user => !user.isDeleted

/-- `users.findByEmail`. -/
def findUserByEmail (s : UserStore) (email : Email) : Option User :=
  s.usersById.values.find? fun user => Decidable.decide (user.email = email) && !user.isDeleted

/-- `users.existsByEmail`, which counts deleted users. -/
def existsByEmail (s : UserStore) (email : Email) : Bool :=
  s.usersById.values.any fun user => Decidable.decide (user.email = email)

/-- `users.save`. -/
def saveUser (s : UserStore) (useCase : UserUseCase) (user : User) : UserStore :=
  { s with
    usersById := s.usersById.put user
    journal :=
      ⟨useCase, user.id, (s.usersById.get? user.id).map User.status, user.status⟩ :: s.journal }

/-- `emailVerificationTokens.findByTokenHash`. -/
def findTokenByHash (s : UserStore) (tokenHash : String) : Option EmailVerificationToken :=
  s.tokensById.values.find? fun token => Decidable.decide (token.tokenHash = tokenHash)

/-- `emailVerificationTokens.save`. -/
def saveToken (s : UserStore) (token : EmailVerificationToken) : UserStore :=
  { s with tokensById := s.tokensById.put token }

/-- A token of the user is retired. -/
def retire (userId : String) (now : ℤ) (token : EmailVerificationToken) : EmailVerificationToken :=
  if token.userId = userId then token.invalidate now else token

theorem id_retire (userId : String) (now : ℤ) (token : EmailVerificationToken) :
    (retire userId now token).id = token.id := by
  unfold retire
  split <;> simp

/-- `emailVerificationTokens.invalidateOutstandingForUser`. -/
def invalidateOutstandingForUser (s : UserStore) (userId : String) (now : ℤ) : UserStore :=
  { s with tokensById := s.tokensById.mapValues (retire userId now) (id_retire userId now) }

/-- How a call is answered.  An id that is created is the id of nothing so far. -/
def serve : Server UserStore UserInput UserCall UserCall.Answer
  | _, s, .now, .time t => some (t, s)
  | _, s, .createId, .text id =>
    if (s.usersById.get? id).isNone && (s.tokensById.get? id).isNone then some (id, s) else none
  | _, s, .generateToken, .text rawToken => some (rawToken, s)
  | _, s, .findUserById id, .served => some (s.findUserById id, s)
  | _, s, .findUserByEmail email, .served => some (s.findUserByEmail email, s)
  | _, s, .existsByEmail email, .served => some (s.existsByEmail email, s)
  | _, s, .saveUser useCase _ user, .served => some ((), s.saveUser useCase user)
  | _, s, .findTokenByHash tokenHash, .served => some (s.findTokenByHash tokenHash, s)
  | _, s, .saveToken token, .served => some ((), s.saveToken token)
  | _, s, .invalidateOutstandingForUser userId now, .served =>
    some ((), s.invalidateOutstandingForUser userId now)
  | _, s, .sendEmailVerification _ _ _, .delivered succeeded => some (succeeded, s)
  | _, _, _, _ => none

end UserStore

namespace UserCalls

/-- `new Date()`. -/
def now : UserProgram ℤ := Program.perform UserCall.now

/-- `createId()`. -/
def createId : UserProgram String := Program.perform UserCall.createId

/-- `generateToken()`. -/
def generateToken : UserProgram String := Program.perform UserCall.generateToken

def findUserById (id : String) : UserProgram (Option User) :=
  Program.perform (UserCall.findUserById id)

def findUserByEmail (email : Email) : UserProgram (Option User) :=
  Program.perform (UserCall.findUserByEmail email)

def existsByEmail (email : Email) : UserProgram Bool :=
  Program.perform (UserCall.existsByEmail email)

def saveUser (useCase : UserUseCase) (found : Option UserStatus) (user : User) :
    UserProgram Unit :=
  Program.perform (UserCall.saveUser useCase found user)

def findTokenByHash (tokenHash : String) : UserProgram (Option EmailVerificationToken) :=
  Program.perform (UserCall.findTokenByHash tokenHash)

def saveToken (token : EmailVerificationToken) : UserProgram Unit :=
  Program.perform (UserCall.saveToken token)

def invalidateOutstandingForUser (userId : String) (now : ℤ) : UserProgram Unit :=
  Program.perform (UserCall.invalidateOutstandingForUser userId now)

def sendEmailVerification (email rawToken : String) (expiresAt : ℤ) : UserProgram Bool :=
  Program.perform (UserCall.sendEmailVerification email rawToken expiresAt)

end UserCalls

/-- What a use case returns instead of a user. -/
inductive UserError where
  | validation (error : ValidationError)
  | notFound (message : String)
  | conflict (message : String)
  deriving DecidableEq

/-- The error for a user that is not there. -/
def userNotFound (userId : String) : UserError :=
  .notFound ("No user found with id \"" ++ userId ++ "\".")

/-- What the use cases are wired with. -/
structure UserDeployment where
  toLowerCase : String → String
  sha256 : String → String
  /-- How long a verification link works, unless for a day. -/
  ttlMs : Option ℤ

/-! ## Registration -/

structure RegisterUserCommand where
  email : String
  displayName : String
  givenName : Option String
  familyName : Option String
  deriving DecidableEq

/-- Registers a user whose email address nobody has. -/
def RegisterUser.execute (D : UserDeployment) (command : RegisterUserCommand) :
    UserProgram (Except UserError User) :=
  match Email.create D.toLowerCase command.email, DisplayName.create command.displayName,
      (command.givenName.mapM fun givenName => PersonName.create givenName command.familyName) with
  | .error error, _, _ => return .error (.validation error)
  | _, .error error, _ => return .error (.validation error)
  | _, _, .error error => return .error (.validation error)
  | .ok email, .ok displayName, .ok personName => do
    if ← UserCalls.existsByEmail email then
      return .error (.conflict ("A user with email \"" ++ email.value ++ "\" already exists."))
    else
      let now ← UserCalls.now
      let id ← UserCalls.createId
      let user := User.register email displayName personName id now
      UserCalls.saveUser .registerUser none user
      return .ok user

/-! ## Email verification -/

/-- Sends a link to a pending user, and retires the links sent before. -/
def RequestEmailVerification.execute (D : UserDeployment) (email : String) : UserProgram Bool :=
  match Email.create D.toLowerCase email with
  | .error _ => return false
  | .ok email => do
    let now ← UserCalls.now
    match ← UserCalls.findUserByEmail email with
    | none => return false
    | some user =>
      if user.status ≠ .pending then return false
      else
        UserCalls.invalidateOutstandingForUser user.id now
        let rawToken ← UserCalls.generateToken
        let id ← UserCalls.createId
        let token := EmailVerificationToken.issue D.sha256 user.id D.ttlMs now id rawToken
        UserCalls.saveToken token
        let _ ← UserCalls.sendEmailVerification email.value rawToken token.expiresAt
        return true

/-- The refusal of a link. -/
def invalidLink : ValidationError :=
  ⟨"This verification link is not valid.", [("token", ["invalid"])]⟩

/-- Redeems a link: the token is consumed, then the user made active. -/
def ConfirmEmailVerification.execute (D : UserDeployment) (rawToken : String) :
    UserProgram (Except ValidationError User) := do
  let now ← UserCalls.now
  match ← UserCalls.findTokenByHash (hashToken D.sha256 rawToken) with
  | none => return .error invalidLink
  | some token =>
    if !token.matchesToken D.sha256 rawToken then return .error invalidLink
    else
      match token.consume now with
      | .error error => return .error error
      | .ok consumed =>
        match ← UserCalls.findUserById token.userId with
        | none => return .error invalidLink
        | some user =>
          UserCalls.saveToken consumed
          let later ← UserCalls.now
          match user.activate (some "email verified") later with
          | .error _ =>
            return .error ⟨"This account cannot be activated.", [("token", ["invalid"])]⟩
          | .ok activated =>
            UserCalls.saveUser .confirmEmailVerification (some user.status) activated
            return .ok activated

/-! ## Suspension -/

structure SuspensionCommand where
  userId : String
  reason : String
  deriving DecidableEq

/-- Suspends an active user, with a reason. -/
def SuspendUser.execute (command : SuspensionCommand) : UserProgram (Except UserError User) := do
  match ← UserCalls.findUserById command.userId with
  | none => return .error (userNotFound command.userId)
  | some user =>
    if trim command.reason = "" then
      return .error (.validation
        ⟨"A reason is required to suspend a user.", [("reason", ["required"])]⟩)
    else
      let now ← UserCalls.now
      match user.suspend (some (trim command.reason)) now with
      | .error error => return .error (.validation error)
      | .ok suspended =>
        UserCalls.saveUser .suspendUser (some user.status) suspended
        return .ok suspended

/-- Lifts a suspension, with a reason. -/
def ReactivateUser.execute (command : SuspensionCommand) :
    UserProgram (Except UserError User) := do
  match ← UserCalls.findUserById command.userId with
  | none => return .error (userNotFound command.userId)
  | some user =>
    if user.status ≠ .suspended then
      return .error (.validation
        ⟨"Cannot reactivate a user in \"" ++ statusText user.status ++
          "\" status; only suspended users can be reactivated.", [("status", ["not_suspended"])]⟩)
    else if trim command.reason = "" then
      return .error (.validation
        ⟨"A reason is required to reactivate a user.", [("reason", ["required"])]⟩)
    else
      let now ← UserCalls.now
      match user.activate (some (trim command.reason)) now with
      | .error error => return .error (.validation error)
      | .ok activated =>
        UserCalls.saveUser .reactivateUser (some user.status) activated
        return .ok activated

/-! ## Profiles -/

structure UpdateUserProfileCommand where
  userId : String
  displayName : Option String
  givenName : Option String
  familyName : Option String
  deriving DecidableEq

/-- A check whose errors are collected: what it gives instead of the value so far. -/
def collected {α : Type} (current : α) (result : Option (Except ValidationError α)) :
    α × List (String × List String) :=
  match result with
  | some (.ok value) => (value, [])
  | some (.error error) => (current, error.fieldErrors)
  | none => (current, [])

/-- Changes the names of a user. -/
def UpdateUserProfile.execute (command : UpdateUserProfileCommand) :
    UserProgram (Except UserError User) := do
  match ← UserCalls.findUserById command.userId with
  | none => return .error (userNotFound command.userId)
  | some user =>
    let (nextDisplayName, displayNameErrors) :=
      collected user.displayName (command.displayName.map DisplayName.create)
    let (nextPersonName, personNameErrors) :=
      collected user.personName (command.givenName.map fun givenName =>
        (PersonName.create givenName command.familyName).map some)
    let errors := mergeFieldErrors (mergeFieldErrors [] displayNameErrors) personNameErrors
    if errors ≠ [] then
      return .error (.validation ⟨"User profile update is invalid.", errors⟩)
    else
      let now ← UserCalls.now
      let updated := user.updateProfile nextDisplayName nextPersonName now
      UserCalls.saveUser .updateUserProfile (some user.status) updated
      return .ok updated

/-! ## All together -/

/-- A use case that is executed. -/
inductive UserCommand where
  | registerUser (command : RegisterUserCommand)
  | requestEmailVerification (email : String)
  | confirmEmailVerification (rawToken : String)
  | suspendUser (command : SuspensionCommand)
  | reactivateUser (command : SuspensionCommand)
  | updateUserProfile (command : UpdateUserProfileCommand)
  deriving DecidableEq

/-- What a use case returns. -/
def UserCommand.Result : UserCommand → Type
  | .registerUser _ => Except UserError User
  | .requestEmailVerification _ => Bool
  | .confirmEmailVerification _ => Except ValidationError User
  | .suspendUser _ => Except UserError User
  | .reactivateUser _ => Except UserError User
  | .updateUserProfile _ => Except UserError User

/-- The program of a use case. -/
def UserDeployment.body (D : UserDeployment) :
    (command : UserCommand) → UserProgram command.Result
  | .registerUser command => RegisterUser.execute D command
  | .requestEmailVerification email => RequestEmailVerification.execute D email
  | .confirmEmailVerification rawToken => ConfirmEmailVerification.execute D rawToken
  | .suspendUser command => SuspendUser.execute command
  | .reactivateUser command => ReactivateUser.execute command
  | .updateUserProfile command => UpdateUserProfile.execute command

/-- Any number of use cases at work on one store. -/
abbrev UserPool := Pool UserStore UserCall UserCall.Answer UserCommand.Result

/-- One step of the use cases. -/
def UserDeployment.step (D : UserDeployment) :
    UserPool → PoolEvent UserCommand UserInput → Option UserPool :=
  Pool.step UserStore.serve D.body

end Verixa.Identity
