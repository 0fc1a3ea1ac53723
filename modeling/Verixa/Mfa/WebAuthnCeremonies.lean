import Verixa.Collections.KeyedMap
import Verixa.Concurrency.Journal
import Verixa.Mfa.MfaMethod
import Verixa.Mfa.WebAuthnVerifiers

/-!
# WebAuthn ceremonies

The two WebAuthn use cases.  Each issues challenges for its ceremony, and completes the ceremony
with what the authenticator answers.  `RegisterWebAuthnCredential` has the attestation verified and
saves a new credential.  `VerifyWebAuthnAssertion` has the assertion verified, and compares its
signature counter with that of the credential it has found.  A counter that does not advance is
reported as a suspected clone; else the credential is saved with the new counter.

The challenges, credentials and methods are kept as the repositories in memory keep them.  The
clock, random values, the verifiers and the publisher of events are outside.  A journal is kept for
what is said about runs, and read by nothing else.
-/

namespace Verixa.Mfa

open Concurrency Encoding

/-! ## Challenges and credentials -/

inductive WebAuthnCeremonyType where
  | registration
  | authentication
  deriving DecidableEq

structure WebAuthnChallenge where
  id : String
  userId : String
  challenge : String
  ceremonyType : WebAuthnCeremonyType
  createdAt : ℤ
  expiresAt : ℤ
  used : Bool
  deriving DecidableEq

namespace WebAuthnChallenge

/-- A new challenge; `id` is what `createId` returns. -/
def create (id userId challenge : String) (ceremonyType : WebAuthnCeremonyType) (ttlMs now : ℤ) :
    WebAuthnChallenge where
  id := id
  userId := userId
  challenge := challenge
  ceremonyType := ceremonyType
  createdAt := now
  expiresAt := now + ttlMs
  used := false

def isExpired (challenge : WebAuthnChallenge) (now : ℤ) : Bool := decide (challenge.expiresAt < now)

/-- Marks the challenge used; throws if it is. -/
def consume (challenge : WebAuthnChallenge) : Except ThrownError WebAuthnChallenge :=
  if challenge.used then .error { message := "Challenge has already been consumed." }
  else .ok { challenge with used := true }

end WebAuthnChallenge

inductive AuthenticatorTransport where
  | usb
  | nfc
  | ble
  | smartCard
  | hybrid
  | internal
  deriving DecidableEq

structure WebAuthnCredential where
  id : String
  credentialId : String
  userId : String
  mfaMethodId : String
  publicKey : String
  signCounter : ℕ
  transports : List AuthenticatorTransport
  attestationType : String
  aaguid : Option String
  deviceName : Option String
  createdAt : ℤ
  lastUsedAt : Option ℤ
  deriving DecidableEq

def WebAuthnCredential.updateSignCounter (credential : WebAuthnCredential) (newCounter : ℕ)
    (now : ℤ) : WebAuthnCredential :=
  { credential with signCounter := newCounter, lastUsedAt := some now }

/-- A counter that does not advance. -/
structure WebAuthnCloneSuspected where
  credentialId : String
  userId : String
  previousCounter : ℕ
  presentedCounter : ℕ
  deriving DecidableEq

/-! ## Calls -/

/-- A call made by the use cases. -/
inductive CeremonyRequest where
  | now
  | createId
  | randomChallenge
  | saveChallenge (challenge : WebAuthnChallenge)
  | findByChallenge (challenge : String)
  | consume (challenge : String)
  | findByCredentialId (credentialId : String)
  | findMethodById (id : String)
  | verifyAttestation (options : VerifyAttestationOptions)
  | verifyAssertion (options : VerifyAssertionOptions)
  | publish (event : WebAuthnCloneSuspected)
  | saveMethod (method : MfaMethod)
  | saveCredential (credential : WebAuthnCredential)

/-- What a call is answered with, or throws. -/
def CeremonyRequest.Answer : CeremonyRequest → Type
  | .now => ℤ
  | .createId | .randomChallenge => String
  | .findByChallenge _ => Option WebAuthnChallenge
  | .consume _ => Except ThrownError Bool
  | .findByCredentialId _ => Option WebAuthnCredential
  | .findMethodById _ => Option MfaMethod
  | .verifyAttestation _ => Except ThrownError (Except ValidationError VerifiedAttestation)
  | .verifyAssertion _ => Except ThrownError (Except ValidationError VerifiedAssertion)
  | .publish _ => Except ThrownError Unit
  | .saveChallenge _ | .saveMethod _ | .saveCredential _ => Unit

/-- A program over these calls. -/
abbrev CeremonyProgram := Program CeremonyRequest CeremonyRequest.Answer

namespace CeremonyCalls

/-- `new Date()`. -/
def now : CeremonyProgram ℤ := Program.perform CeremonyRequest.now

/-- `createId()`. -/
def createId : CeremonyProgram String := Program.perform CeremonyRequest.createId

/-- `crypto.randomBytes(32).toString("base64url")`. -/
def randomChallenge : CeremonyProgram String := Program.perform CeremonyRequest.randomChallenge

/-- `challengeRepository.save`. -/
def saveChallenge (challenge : WebAuthnChallenge) : CeremonyProgram Unit :=
  Program.perform (CeremonyRequest.saveChallenge challenge)

/-- `challengeRepository.findByChallenge`. -/
def findByChallenge (challenge : String) : CeremonyProgram (Option WebAuthnChallenge) :=
  Program.perform (CeremonyRequest.findByChallenge challenge)

/-- `challengeRepository.consume`. -/
def consume (challenge : String) : CeremonyProgram (Except ThrownError Bool) :=
  Program.perform (CeremonyRequest.consume challenge)

/-- `credentialRepository.findByCredentialId`. -/
def findByCredentialId (credentialId : String) : CeremonyProgram (Option WebAuthnCredential) :=
  Program.perform (CeremonyRequest.findByCredentialId credentialId)

/-- `mfaMethodRepository.findById`. -/
def findMethodById (id : String) : CeremonyProgram (Option MfaMethod) :=
  Program.perform (CeremonyRequest.findMethodById id)

/-- `attestationVerifier.verify`. -/
def verifyAttestation (options : VerifyAttestationOptions) :
    CeremonyProgram (Except ThrownError (Except ValidationError VerifiedAttestation)) :=
  Program.perform (CeremonyRequest.verifyAttestation options)

/-- `assertionVerifier.verify`. -/
def verifyAssertion (options : VerifyAssertionOptions) :
    CeremonyProgram (Except ThrownError (Except ValidationError VerifiedAssertion)) :=
  Program.perform (CeremonyRequest.verifyAssertion options)

/-- `eventPublisher.publish`. -/
def publish (event : WebAuthnCloneSuspected) : CeremonyProgram (Except ThrownError Unit) :=
  Program.perform (CeremonyRequest.publish event)

/-- `mfaMethodRepository.save`. -/
def saveMethod (method : MfaMethod) : CeremonyProgram Unit :=
  Program.perform (CeremonyRequest.saveMethod method)

/-- `credentialRepository.save`. -/
def saveCredential (credential : WebAuthnCredential) : CeremonyProgram Unit :=
  Program.perform (CeremonyRequest.saveCredential credential)

end CeremonyCalls

/-! ## Challenges of a ceremony -/

/-- The configuration, which is of one form for both use cases. -/
structure CeremonyConfig where
  expectedOrigin : String
  expectedRpId : String
  challengeTtlMs : ℤ := 5 * 60 * 1000

inductive CeremonyError where
  | validation (error : ValidationError)
  | conflict (message : String)
  | accountLocked (error : AccountLockedError)
  deriving DecidableEq

/-- What an operation returns, or throws. -/
abbrev CeremonyResult (α : Type) := Except ThrownError (Except CeremonyError α)

/-- A validation error without fields. -/
def refused {α : Type} (message : String) : CeremonyResult α :=
  .ok (.error (.validation ⟨message, []⟩))

/-- `now: Date = new Date()`. -/
def readNow : Option ℤ → CeremonyProgram ℤ
  | some now => return now
  | none => CeremonyCalls.now

/-- A challenge is asked for, at a time that may be given. -/
structure IssueChallengeCommand where
  userId : String
  now : Option ℤ := none

structure IssueChallengeResult where
  challenge : String
  expiresAt : ℤ
  deriving DecidableEq

/-- `issueChallenge` of either use case. -/
def issueChallenge (ceremonyType : WebAuthnCeremonyType) (config : CeremonyConfig)
    (command : IssueChallengeCommand) : CeremonyProgram (CeremonyResult IssueChallengeResult) := do
  let now ← readNow command.now
  if isBlank command.userId then return refused "User ID is required to issue a challenge."
  else
    let text ← CeremonyCalls.randomChallenge
    let id ← CeremonyCalls.createId
    let challenge :=
      WebAuthnChallenge.create id command.userId text ceremonyType config.challengeTtlMs now
    CeremonyCalls.saveChallenge challenge
    return .ok (.ok ⟨challenge.challenge, challenge.expiresAt⟩)

/-- What a use case says of a challenge that it does not take. -/
structure ChallengeTexts where
  invalid : String
  expired : String
  alreadyUsed : String
  notConsumed : String

/-- The steps 2 to 4 of either use case: the challenge is found, is one for this user and this
ceremony, and is consumed. -/
def redeemChallenge {α : Type} (ceremonyType : WebAuthnCeremonyType) (texts : ChallengeTexts)
    (userId challengeText : String) (now : ℤ) (rest : CeremonyProgram (CeremonyResult α)) :
    CeremonyProgram (CeremonyResult α) := do
  match ← CeremonyCalls.findByChallenge challengeText with
  | none => return refused texts.invalid
  | some challenge =>
    if challenge.userId ≠ userId ∨ challenge.ceremonyType ≠ ceremonyType then
      return refused texts.invalid
    else if challenge.isExpired now then return refused texts.expired
    else if challenge.used then return refused texts.alreadyUsed
    else
      match ← CeremonyCalls.consume challengeText with
      | .error thrown => return .error thrown
      | .ok false => return refused texts.notConsumed
      | .ok true => rest

/-- An argument of a verifier. -/
def toInput : String ⊕ Bytes → BytesInput
  | .inl value => .text value
  | .inr value => .bytes value

/-- `!input`. -/
def isFalsy : String ⊕ Bytes → Bool
  | .inl value => value == ""
  | .inr _ => false

/-! ## Registration -/

structure RegisterWebAuthnCredentialCommand where
  userId : String
  challenge : String
  clientDataJSON : String ⊕ Bytes
  attestationObject : String ⊕ Bytes
  transports : Option (List AuthenticatorTransport) := none
  deviceName : Option String := none
  now : Option ℤ := none

structure RegisterWebAuthnCredentialResult where
  mfaMethod : MfaMethod
  credential : WebAuthnCredential
  deriving DecidableEq

namespace RegisterWebAuthnCredential

def texts : ChallengeTexts where
  invalid := "Registration challenge is invalid or does not belong to this user."
  expired := "Registration challenge has expired."
  alreadyUsed := "Registration challenge has already been used."
  notConsumed := "Registration challenge has already been used."

/-- What is missing from the command. -/
def missing (command : RegisterWebAuthnCredentialCommand) : Option String :=
  if isBlank command.userId then some "User ID is required."
  else if isBlank command.challenge then some "Challenge is required."
  else if isFalsy command.clientDataJSON then some "clientDataJSON is required."
  else if isFalsy command.attestationObject then some "attestationObject is required."
  else none

section Execute

variable (config : CeremonyConfig) (command : RegisterWebAuthnCredentialCommand)

/-- The credential that is registered. -/
def newCredential (verified : VerifiedAttestation) (mfaMethod : MfaMethod) (id : String)
    (now : ℤ) : WebAuthnCredential where
  id := id
  credentialId := verified.credentialId
  userId := command.userId
  mfaMethodId := mfaMethod.id
  publicKey := verified.credentialPublicKey
  signCounter := verified.signCounter
  transports := command.transports.getD []
  attestationType := verified.attestationType
  aaguid := verified.aaguid
  deviceName := command.deviceName
  createdAt := now
  lastUsedAt := none

/-- Step 7: the method and the credential are saved. -/
def persist (verified : VerifiedAttestation) (now : ℤ) :
    CeremonyProgram (CeremonyResult RegisterWebAuthnCredentialResult) := do
  let methodId ← CeremonyCalls.createId
  let mfaMethod := MfaMethod.createActive methodId command.userId .webauthn now
  CeremonyCalls.saveMethod mfaMethod
  let id ← CeremonyCalls.createId
  let credential := newCredential command verified mfaMethod id now
  CeremonyCalls.saveCredential credential
  return .ok (.ok ⟨mfaMethod, credential⟩)

/-- Step 6: no such credential may be registered. -/
def checkDuplicate (verified : VerifiedAttestation) (now : ℤ) :
    CeremonyProgram (CeremonyResult RegisterWebAuthnCredentialResult) := do
  match ← CeremonyCalls.findByCredentialId verified.credentialId with
  | some _ =>
    return .ok (.error (.conflict ("WebAuthn credential with ID \"" ++ verified.credentialId ++
      "\" is already registered.")))
  | none => persist command verified now

/-- Step 5: the attestation is verified. -/
def verifyAttestation (now : ℤ) :
    CeremonyProgram (CeremonyResult RegisterWebAuthnCredentialResult) := do
  match ← CeremonyCalls.verifyAttestation {
      clientDataJSON := toInput command.clientDataJSON
      attestationObject := toInput command.attestationObject
      expectedChallenge := command.challenge
      expectedOrigin := config.expectedOrigin
      expectedRpId := config.expectedRpId } with
  | .error thrown => return .error thrown
  | .ok (.error error) => return .ok (.error (.validation error))
  | .ok (.ok verified) => checkDuplicate command verified now

/-- Completes the registration. -/
def execute : CeremonyProgram (CeremonyResult RegisterWebAuthnCredentialResult) := do
  let now ← readNow command.now
  match missing command with
  | some message => return refused message
  | none =>
    redeemChallenge .registration texts command.userId command.challenge now
      (verifyAttestation config command now)

end Execute

end RegisterWebAuthnCredential

/-! ## Authentication -/

structure VerifyWebAuthnAssertionCommand where
  userId : String
  credentialId : String
  challenge : String
  clientDataJSON : String ⊕ Bytes
  authenticatorData : String ⊕ Bytes
  signature : String ⊕ Bytes
  now : Option ℤ := none

structure VerifyWebAuthnAssertionResult where
  credential : WebAuthnCredential
  mfaMethod : MfaMethod
  deriving DecidableEq

namespace VerifyWebAuthnAssertion

def texts : ChallengeTexts where
  invalid := "Authentication challenge is invalid or does not belong to this user."
  expired := "Authentication challenge has expired."
  alreadyUsed := "Authentication challenge has already been used."
  notConsumed := "Authentication challenge could not be consumed (concurrent use)."

/-- What is missing from the command. -/
def missing (command : VerifyWebAuthnAssertionCommand) : Option String :=
  if isBlank command.userId then some "User ID is required."
  else if isBlank command.credentialId then some "Credential ID is required."
  else if isBlank command.challenge then some "Challenge is required."
  else if isFalsy command.clientDataJSON then some "clientDataJSON is required."
  else if isFalsy command.authenticatorData then some "authenticatorData is required."
  else if isFalsy command.signature then some "signature is required."
  else none

/-- The counter does not advance, although counters are in use. -/
def suspectsClone (credential : WebAuthnCredential) (presentedCounter : ℕ) : Bool :=
  decide (0 < credential.signCounter ∧ presentedCounter ≤ credential.signCounter)

/-- Records a failed attempt. -/
def fail (mfaMethod : MfaMethod) (now : ℤ) (error : ValidationError) :
    CeremonyProgram (CeremonyResult VerifyWebAuthnAssertionResult) := do
  CeremonyCalls.saveMethod (mfaMethod.recordFailedAttempt now)
  return .ok (.error (.validation error))

/-- Step 9: the counter is advanced. -/
def succeed (credential : WebAuthnCredential) (mfaMethod : MfaMethod)
    (verifiedAssertion : VerifiedAssertion) (now : ℤ) :
    CeremonyProgram (CeremonyResult VerifyWebAuthnAssertionResult) := do
  let updatedCredential := credential.updateSignCounter verifiedAssertion.signCounter now
  CeremonyCalls.saveCredential updatedCredential
  match mfaMethod.recordUse now with
  | .error thrown => return .error thrown
  | .ok activeMethod => do
    CeremonyCalls.saveMethod activeMethod
    return .ok (.ok ⟨updatedCredential, activeMethod⟩)

/-- Step 8: the detection of clones. -/
def detectClone (userId : String) (credential : WebAuthnCredential) (mfaMethod : MfaMethod)
    (verifiedAssertion : VerifiedAssertion) (now : ℤ) :
    CeremonyProgram (CeremonyResult VerifyWebAuthnAssertionResult) := do
  if suspectsClone credential verifiedAssertion.signCounter then
    match ← CeremonyCalls.publish ⟨credential.credentialId, userId, credential.signCounter,
        verifiedAssertion.signCounter⟩ with
    | .error thrown => return .error thrown
    | .ok () =>
      fail mfaMethod now ⟨"Suspected credential cloning: signature counter did not increase.", []⟩
  else succeed credential mfaMethod verifiedAssertion now

section Execute

variable (config : CeremonyConfig) (command : VerifyWebAuthnAssertionCommand)

/-- Step 7: the assertion is verified. -/
def verifyAssertion (credential : WebAuthnCredential) (mfaMethod : MfaMethod) (now : ℤ) :
    CeremonyProgram (CeremonyResult VerifyWebAuthnAssertionResult) := do
  match ← CeremonyCalls.verifyAssertion {
      credentialId := command.credentialId
      clientDataJSON := toInput command.clientDataJSON
      authenticatorData := toInput command.authenticatorData
      signature := toInput command.signature
      credentialPublicKey := credential.publicKey
      expectedChallenge := command.challenge
      expectedOrigin := config.expectedOrigin
      expectedRpId := config.expectedRpId } with
  | .error thrown => return .error thrown
  | .ok (.error error) => fail mfaMethod now error
  | .ok (.ok verifiedAssertion) =>
    detectClone command.userId credential mfaMethod verifiedAssertion now

/-- Step 6: the method of a credential is found. -/
def findMethod (credential : WebAuthnCredential) (now : ℤ) :
    CeremonyProgram (CeremonyResult VerifyWebAuthnAssertionResult) := do
  match ← CeremonyCalls.findMethodById credential.mfaMethodId with
  | none => return refused "WebAuthn MFA method is not active."
  | some mfaMethod =>
    if mfaMethod.status ≠ .active then return refused "WebAuthn MFA method is not active."
    else if mfaMethod.isLockedAt now then
      return .ok (.error (.accountLocked ⟨"MFA method is temporarily locked."⟩))
    else verifyAssertion config command credential mfaMethod now

/-- Step 5: the credential is found. -/
def findCredential (now : ℤ) :
    CeremonyProgram (CeremonyResult VerifyWebAuthnAssertionResult) := do
  match ← CeremonyCalls.findByCredentialId command.credentialId with
  | none => return refused "WebAuthn credential not found."
  | some credential =>
    if credential.userId ≠ command.userId then return refused "WebAuthn credential not found."
    else findMethod config command credential now

/-- Verifies a presented assertion. -/
def execute : CeremonyProgram (CeremonyResult VerifyWebAuthnAssertionResult) := do
  let now ← readNow command.now
  match missing command with
  | some message => return refused message
  | none =>
    redeemChallenge .authentication texts command.userId command.challenge now
      (findCredential config command now)

end Execute

end VerifyWebAuthnAssertion

/-! ## Executions over the repositories -/

/-- An execution of an operation of the two use cases. -/
inductive CeremonyOperation where
  | issue (ceremonyType : WebAuthnCeremonyType) (command : IssueChallengeCommand)
  | register (command : RegisterWebAuthnCredentialCommand)
  | authenticate (command : VerifyWebAuthnAssertionCommand)

namespace CeremonyOperation

/-- What the operation returns. -/
def Returns : CeremonyOperation → Type
  | .issue _ _ => CeremonyResult IssueChallengeResult
  | .register _ => CeremonyResult RegisterWebAuthnCredentialResult
  | .authenticate _ => CeremonyResult VerifyWebAuthnAssertionResult

/-- What the operation runs; each use case has its configuration. -/
def execute (config : WebAuthnCeremonyType → CeremonyConfig) :
    (operation : CeremonyOperation) → CeremonyProgram operation.Returns
  | .issue ceremonyType command => issueChallenge ceremonyType (config ceremonyType) command
  | .register command => RegisterWebAuthnCredential.execute (config .registration) command
  | .authenticate command => VerifyWebAuthnAssertion.execute (config .authentication) command

end CeremonyOperation

/-- What a thread has done.  With the save of a credential goes the counter of the assertion that
the thread has had verified. -/
inductive CeremonyDeed where
  | readTime (now : ℤ)
  | issued (challenge : WebAuthnChallenge)
  | consumed (challenge : WebAuthnChallenge)
  | found (credential : Option WebAuthnCredential)
  | presented (signCounter : ℕ)
  | saved (presented : Option ℕ) (credential : WebAuthnCredential)
  deriving DecidableEq

/-- What was found of a credential, if the deed is that. -/
def CeremonyDeed.found? : CeremonyDeed → Option (Option WebAuthnCredential)
  | .found credential => some credential
  | _ => none

/-- The counter that was presented, if the deed is that. -/
def CeremonyDeed.presented? : CeremonyDeed → Option ℕ
  | .presented signCounter => some signCounter
  | _ => none

/-- The repositories, and what the threads have done. -/
structure CeremonyStore where
  challengesByValue : KeyedMap WebAuthnChallenge.challenge
  credentialsById : KeyedMap WebAuthnCredential.credentialId
  methodsById : KeyedMap MfaMethod.id
  journal : List (ℕ × CeremonyDeed)

/-- What comes from outside. -/
inductive CeremonyInput where
  | time (now : ℤ)
  | drawn (text : String)
  | attested (answer : Except ThrownError (Except ValidationError VerifiedAttestation))
  | verified (answer : Except ThrownError (Except ValidationError VerifiedAssertion))
  | published (answer : Except ThrownError Unit)
  | served

namespace CeremonyStore

/-- Enters a deed of a thread. -/
def note (s : CeremonyStore) (i : ℕ) (deed : CeremonyDeed) : CeremonyStore :=
  { s with journal := (i, deed) :: s.journal }

/-- The deeds of a thread, the latest first. -/
def deedsOf (s : CeremonyStore) (i : ℕ) : List CeremonyDeed :=
  (s.journal.filter fun p => p.1 = i).map Prod.snd

/-- What the thread has found of the credential it asked for. -/
def foundBy (s : CeremonyStore) (i : ℕ) : Option (Option WebAuthnCredential) :=
  (s.deedsOf i).findSome? CeremonyDeed.found?

/-- The counter that the thread was presented. -/
def presentedTo (s : CeremonyStore) (i : ℕ) : Option ℕ :=
  (s.deedsOf i).findSome? CeremonyDeed.presented?

/-- `save` of the challenge repository in memory. -/
def saveChallenge (s : CeremonyStore) (i : ℕ) (challenge : WebAuthnChallenge) : CeremonyStore :=
  { s with challengesByValue := s.challengesByValue.put challenge }.note i (.issued challenge)

/-- `consume` of the challenge repository in memory. -/
def consume (s : CeremonyStore) (i : ℕ) (challenge : String) :
    Except ThrownError Bool × CeremonyStore :=
  match s.challengesByValue.get? challenge with
  | none => (.ok false, s)
  | some existing =>
    if existing.used then (.ok false, s)
    else
      match existing.consume with
      | .error thrown => (.error thrown, s)
      | .ok consumed =>
        (.ok true, { s with challengesByValue := s.challengesByValue.put consumed }.note i
          (.consumed existing))

/-- `save` of the credential repository in memory. -/
def saveCredential (s : CeremonyStore) (i : ℕ) (credential : WebAuthnCredential) : CeremonyStore :=
  { s with credentialsById := s.credentialsById.put credential }.note i
    (.saved (s.presentedTo i) credential)

/-- How a call of thread `i` is answered. -/
def serve : Server CeremonyStore CeremonyInput CeremonyRequest CeremonyRequest.Answer
  | i, s, .now, .time now => some (now, s.note i (.readTime now))
  | _, s, .createId, .drawn text => some (text, s)
  | _, s, .randomChallenge, .drawn text => some (text, s)
  | i, s, .saveChallenge challenge, .served => some ((), s.saveChallenge i challenge)
  | _, s, .findByChallenge challenge, .served => some (s.challengesByValue.get? challenge, s)
  | i, s, .consume challenge, .served => some (s.consume i challenge)
  | i, s, .findByCredentialId credentialId, .served =>
    some (s.credentialsById.get? credentialId,
      s.note i (.found (s.credentialsById.get? credentialId)))
  | _, s, .findMethodById id, .served => some (s.methodsById.get? id, s)
  | _, s, .verifyAttestation _, .attested answer => some (answer, s)
  | i, s, .verifyAssertion _, .verified answer =>
    match answer with
    | .ok (.ok verifiedAssertion) =>
      some (answer, s.note i (.presented verifiedAssertion.signCounter))
    | _ => some (answer, s)
  | _, s, .publish _, .published answer => some (answer, s)
  | _, s, .saveMethod method, .served =>
    some ((), { s with methodsById := s.methodsById.put method })
  | i, s, .saveCredential credential, .served => some ((), s.saveCredential i credential)
  | _, _, _, _ => none

end CeremonyStore

/-! ## What the calls do -/

/-- The store after thread `i` has consumed an unused challenge. -/
def CeremonyStore.redeemed (s : CeremonyStore) (i : ℕ) (existing : WebAuthnChallenge) :
    CeremonyStore :=
  { s with challengesByValue :=
    s.challengesByValue.put { existing with used := true } }.note i (.consumed existing)

/-- A deed that changes none of the challenges and credentials. -/
def CeremonyDeed.isReading : CeremonyDeed → Bool
  | .readTime _ | .found _ | .presented _ => true
  | .issued _ | .consumed _ | .saved _ _ => false

section Calls

variable {s t : CeremonyStore} {i : ℕ} {ω : CeremonyInput}

/-- What `consume` does: nothing, or it marks an unused challenge used. -/
theorem consume_cases {text : String} {answer : Except ThrownError Bool}
    (hserve : CeremonyStore.serve i s (.consume text) ω = some (answer, t)) :
    (t = s ∧ answer = .ok false) ∨
      ∃ existing, s.challengesByValue.get? text = some existing ∧ existing.used = false ∧
        answer = .ok true ∧ t = s.redeemed i existing := by
  have h : s.consume i text = (answer, t) := by
    cases ω with
    | served => exact Option.some.inj hserve
    | _ => cases hserve
  rw [CeremonyStore.consume] at h
  split at h
  · obtain ⟨rfl, rfl⟩ := Prod.mk.inj h
    exact .inl ⟨rfl, rfl⟩
  · rename_i existing hexisting
    split_ifs at h with hused
    · obtain ⟨rfl, rfl⟩ := Prod.mk.inj h
      exact .inl ⟨rfl, rfl⟩
    · have hunused : existing.used = false := by simpa using hused
      have hconsume : existing.consume = .ok { existing with used := true } := by
        rw [WebAuthnChallenge.consume, hunused]
        rfl
      rw [hconsume] at h
      obtain ⟨rfl, rfl⟩ := Prod.mk.inj h
      exact .inr ⟨existing, hexisting, hunused, rfl, rfl⟩

/-- What a call that is answered does to the challenges, the credentials and the journal. -/
theorem serve_cases {q : CeremonyRequest} {r : q.Answer}
    (hserve : CeremonyStore.serve i s q ω = some (r, t)) :
    (∃ challenge, q = .saveChallenge challenge ∧ t = s.saveChallenge i challenge) ∨
      (∃ text existing, s.challengesByValue.get? text = some existing ∧ existing.used = false ∧
        t = s.redeemed i existing) ∨
      (∃ credential, q = .saveCredential credential ∧ t = s.saveCredential i credential) ∨
      (t.challengesByValue = s.challengesByValue ∧ t.credentialsById = s.credentialsById ∧
        (t.journal = s.journal ∨
          ∃ deed, t.journal = (i, deed) :: s.journal ∧ deed.isReading = true)) := by
  cases q with
  | saveChallenge challenge =>
    cases ω <;> cases hserve
    exact .inl ⟨challenge, rfl, rfl⟩
  | consume text =>
    rcases consume_cases hserve with ⟨rfl, -⟩ | ⟨existing, hexisting, hunused, -, rfl⟩
    · exact .inr (.inr (.inr ⟨rfl, rfl, .inl rfl⟩))
    · exact .inr (.inl ⟨text, existing, hexisting, hunused, rfl⟩)
  | saveCredential credential =>
    cases ω <;> cases hserve
    exact .inr (.inr (.inl ⟨credential, rfl, rfl⟩))
  | now | findByCredentialId _ =>
    cases ω <;> cases hserve
    exact .inr (.inr (.inr ⟨rfl, rfl, .inr ⟨_, rfl, rfl⟩⟩))
  | verifyAssertion options =>
    cases ω with
    | verified answer =>
      rcases answer with thrown | (error | verifiedAssertion)
      · cases hserve
        exact .inr (.inr (.inr ⟨rfl, rfl, .inl rfl⟩))
      · cases hserve
        exact .inr (.inr (.inr ⟨rfl, rfl, .inl rfl⟩))
      · cases hserve
        exact .inr (.inr (.inr ⟨rfl, rfl, .inr ⟨_, rfl, rfl⟩⟩))
    | _ => cases hserve
  | _ =>
    cases ω <;> cases hserve
    exact .inr (.inr (.inr ⟨rfl, rfl, .inl rfl⟩))

/-- Every call adds deeds of its thread to the journal. -/
theorem journal_of_serve {q : CeremonyRequest} {r : q.Answer}
    (hserve : CeremonyStore.serve i s q ω = some (r, t)) :
    ∃ deeds : List CeremonyDeed, t.journal = deeds.map (Prod.mk i) ++ s.journal := by
  rcases serve_cases hserve with ⟨challenge, -, rfl⟩ | ⟨text, existing, -, -, rfl⟩ |
    ⟨credential, -, rfl⟩ | ⟨-, -, hsame | ⟨deed, hdeed, -⟩⟩
  · exact ⟨[_], rfl⟩
  · exact ⟨[_], rfl⟩
  · exact ⟨[_], rfl⟩
  · exact ⟨[], hsame⟩
  · exact ⟨[deed], hdeed⟩

end Calls

/-- Any number of executions at work on one store. -/
abbrev CeremonyPool := Pool CeremonyStore CeremonyRequest CeremonyRequest.Answer
  CeremonyOperation.Returns

/-- A step of the pool. -/
def CeremonyPool.step (config : WebAuthnCeremonyType → CeremonyConfig) :
    CeremonyPool → PoolEvent CeremonyOperation CeremonyInput → Option CeremonyPool :=
  Pool.step CeremonyStore.serve (CeremonyOperation.execute config)

end Verixa.Mfa
