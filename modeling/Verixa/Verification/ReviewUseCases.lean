import Mathlib.Data.List.Sort
import Verixa.Collections.KeyedMap
import Verixa.Concurrency.Program
import Verixa.Verification.VerificationRequest

/-!
# The review of verification requests

The use cases find a request, ask it to move on, and save it as a whole in a later call; only the
claim of the next case is one call.  The calls to the provider, which may take long, come between
finding a request and saving it.

A save names the status in which its use case has found the request.  This and the journal are kept
for what is said about runs, and read by nothing else.
-/

namespace Verixa.Verification

open Concurrency Encoding

/-! ## Evidence and checks -/

inductive EvidenceType where
  | governmentIdFront
  | governmentIdBack
  | selfie
  | proofOfAddress
  deriving DecidableEq

structure Evidence where
  id : String
  requestId : String
  type : EvidenceType
  storageRef : String
  checksum : String
  uploadedAt : ℤ
  deriving DecidableEq

def Evidence.belongsTo (evidence : Evidence) (requestId : String) : Bool :=
  decide (evidence.requestId = requestId)

/-- What a provider says of evidence; the outcome is a text that is yet to be checked. -/
structure ProviderCheckResult where
  outcome : String
  confidenceScore : Number
  providerRawRef : Option String
  deriving DecidableEq

namespace ProviderCheckResult

def MAX_CONFIDENCE_SCORE : Number := .finite 1

/-- The result of a check that was not completed. -/
def inconclusive : ProviderCheckResult := ⟨"inconclusive", .finite 0, none⟩

/-- A known outcome, and a confidence in range. -/
def isValid (result : ProviderCheckResult) : Bool :=
  ["passed", "failed", "inconclusive"].contains result.outcome &&
    result.confidenceScore.isFinite && Number.le (.finite 0) result.confidenceScore &&
    result.confidenceScore.le MAX_CONFIDENCE_SCORE

end ProviderCheckResult

/-! ## The store and its calls -/

/-- How the next case is to be claimed. -/
structure ClaimNextInReviewParams where
  reviewerId : String
  now : ℤ
  claimTtlMs : Number
  oneAtATime : Bool
  deriving DecidableEq

/-- What an attempt to claim the next case concluded. -/
inductive ClaimNextOutcome where
  | claimed (request : VerificationRequest)
  | none
  | alreadyClaiming
  deriving DecidableEq

/-- The requests, and which of them have been saved by whom, the latest first. -/
structure ReviewStore where
  requests : KeyedMap VerificationRequest.id
  journal : List (ℕ × VerificationRequest)

/-- A call made by the use cases. -/
inductive ReviewCall where
  | now
  | findById (id : String)
  | save (request : VerificationRequest) (found : VerificationStatus)
  | claimNextInReview (params : ClaimNextInReviewParams)
  | checkLiveness (evidence : Evidence)
  | checkDocument (evidence : Evidence)
  deriving DecidableEq

/-- What a call is answered with; a check that throws has no result. -/
def ReviewCall.Answer : ReviewCall → Type
  | .now => ℤ
  | .findById _ => Option VerificationRequest
  | .save _ _ => Unit
  | .claimNextInReview _ => ClaimNextOutcome
  | .checkLiveness _ => Option ProviderCheckResult
  | .checkDocument _ => Option ProviderCheckResult

/-- A program over these calls. -/
abbrev ReviewProgram := Program ReviewCall ReviewCall.Answer

/-- What the outside adds to a call. -/
inductive ReviewInput where
  | served
  | time (t : ℤ)
  | checked (result : Option ProviderCheckResult)
  deriving DecidableEq

namespace ReviewStore

/-- The store with these requests, in which nothing has happened. -/
def fresh (requests : KeyedMap VerificationRequest.id) : ReviewStore := ⟨requests, []⟩

/-- The request on which a reviewer holds an active claim. -/
def activeClaimOf (s : ReviewStore) (reviewerId : String) (now : ℤ) : Option VerificationRequest :=
  s.requests.values.find? fun request =>
    request.assignment.any fun assignment =>
      assignment.isActiveAt now && assignment.isHeldBy reviewerId

/-- The oldest request that can be claimed. -/
def nextClaimable (s : ReviewStore) (now : ℤ) : Option VerificationRequest :=
  ((s.requests.values.filter fun request => request.isClaimableAt now).insertionSort
    fun a b => a.createdAt ≤ b.createdAt).head?

/-- Claims the oldest request that can be claimed. -/
def claimNextInReview (s : ReviewStore) (params : ClaimNextInReviewParams) :
    ClaimNextOutcome × ReviewStore :=
  if params.oneAtATime && (s.activeClaimOf params.reviewerId params.now).isSome then
    (.alreadyClaiming, s)
  else
    match s.nextClaimable params.now with
    | none => (.none, s)
    | some candidate =>
      match candidate.claimBy params.reviewerId params.now (some params.claimTtlMs) with
      | .error _ => (.none, s)
      | .ok claimed => (.claimed claimed, { s with requests := s.requests.put claimed })

/-- How a call of thread `i` is answered. -/
def serve : Server ReviewStore ReviewInput ReviewCall ReviewCall.Answer
  | _, s, .now, .time t => some (t, s)
  | _, s, .findById id, .served => some (s.requests.get? id, s)
  | i, s, .save request _, .served =>
    some ((), ⟨s.requests.put request, (i, request) :: s.journal⟩)
  | _, s, .claimNextInReview params, .served => some (s.claimNextInReview params)
  | _, s, .checkLiveness _, .checked result => some (result, s)
  | _, s, .checkDocument _, .checked result => some (result, s)
  | _, _, _, _ => none

end ReviewStore

/-- `new Date()`. -/
def readClock : ReviewProgram ℤ := Program.perform ReviewCall.now

/-- `command.now ?? new Date()`. -/
def readNow : Option ℤ → ReviewProgram ℤ
  | some now => return now
  | none => readClock

/-- `requests.findById`. -/
def findRequestById (id : String) : ReviewProgram (Option VerificationRequest) :=
  Program.perform (ReviewCall.findById id)

/-- `requests.save`. -/
def saveRequest (request : VerificationRequest) (found : VerificationStatus) : ReviewProgram Unit :=
  Program.perform (ReviewCall.save request found)

/-- `requests.claimNextInReview`. -/
def claimNextInReview (params : ClaimNextInReviewParams) : ReviewProgram ClaimNextOutcome :=
  Program.perform (ReviewCall.claimNextInReview params)

/-- `provider.checkLiveness`. -/
def checkLiveness (evidence : Evidence) : ReviewProgram (Option ProviderCheckResult) :=
  Program.perform (ReviewCall.checkLiveness evidence)

/-- `provider.checkDocument`. -/
def checkDocument (evidence : Evidence) : ReviewProgram (Option ProviderCheckResult) :=
  Program.perform (ReviewCall.checkDocument evidence)

/-- The error for a request that is not there. -/
def requestNotFound (requestId : String) : VerificationError :=
  .notFound ("Verification request " ++ requestId ++ " was not found.")

/-! ## The automated check -/

structure RunAutomatedCheckCommand where
  requestId : String
  evidence : List Evidence
  deriving DecidableEq

structure EvidenceCheckOutcome where
  evidenceId : String
  result : ProviderCheckResult
  deriving DecidableEq

structure RunAutomatedCheckResult where
  request : VerificationRequest
  checkResults : List EvidenceCheckOutcome
  deriving DecidableEq

namespace RunAutomatedCheck

/-- Checks one piece of evidence; whatever is not a valid result is inconclusive. -/
def check (evidence : Evidence) : ReviewProgram ProviderCheckResult := do
  let result ← if evidence.type = .selfie then checkLiveness evidence else checkDocument evidence
  match result with
  | none => return .inconclusive
  | some result => return if result.isValid then result else .inconclusive

/-- Checks evidence, one piece after another. -/
def checkAll : List Evidence → ReviewProgram (List EvidenceCheckOutcome)
  | [] => return []
  | item :: evidence => do
    let result ← check item
    let rest ← checkAll evidence
    return ⟨item.id, result⟩ :: rest

/-- What is done with a request that was found. -/
def review (request : VerificationRequest) (evidence : List Evidence) :
    ReviewProgram (Except VerificationError RunAutomatedCheckResult) :=
  if evidence.any fun item => !item.belongsTo request.id then
    return .error (.validation ⟨"Evidence does not belong to this verification request.",
      [("evidence", ["mismatched_request"])]⟩)
  else do
    let checkResults ← checkAll evidence
    let now ← readClock
    match request.startReview now with
    | .error error => return .error error
    | .ok reviewed => do
      saveRequest reviewed request.status
      return .ok ⟨reviewed, checkResults⟩

/-- Runs the provider against the evidence, and moves the request into review. -/
def execute (command : RunAutomatedCheckCommand) :
    ReviewProgram (Except VerificationError RunAutomatedCheckResult) := do
  match ← findRequestById command.requestId with
  | none => return .error (requestNotFound command.requestId)
  | some request => review request command.evidence

end RunAutomatedCheck

/-! ## Claiming -/

structure ClaimNextReviewCaseCommand where
  reviewerId : String
  now : Option ℤ := none
  deriving DecidableEq

structure ClaimNextReviewCasePolicy where
  claimTtlMs : Option Number := none
  oneAtATime : Option Bool := none
  deriving DecidableEq

/-- Hands the oldest request that can be claimed to the reviewer. -/
def ClaimNextReviewCase.execute (policy : ClaimNextReviewCasePolicy)
    (command : ClaimNextReviewCaseCommand) : ReviewProgram ClaimNextOutcome := do
  let now ← readNow command.now
  claimNextInReview ⟨command.reviewerId, now, policy.claimTtlMs.getD DEFAULT_CLAIM_TTL_MS,
    policy.oneAtATime.getD true⟩

/-! ## Deciding -/

/-- What a reviewer has to say. -/
structure ReviewerCommand where
  requestId : String
  reviewerId : String
  note : String
  now : Option ℤ := none
  deriving DecidableEq

/-- What a reviewer may do with a request, given himself, his note and the time. -/
abbrev ReviewerAction :=
  VerificationRequest → String → String → ℤ → Except VerificationError VerificationRequest

/-- A reviewer does something with a request: the note is checked, the request is found, asked, and
saved. -/
def actOnRequest (noteRequired : String) (action : ReviewerAction) (command : ReviewerCommand) :
    ReviewProgram (Except VerificationError VerificationRequest) :=
  if trim command.note = "" then
    return .error (.validation ⟨noteRequired, [("note", ["required"])]⟩)
  else do
    match ← findRequestById command.requestId with
    | none => return .error (requestNotFound command.requestId)
    | some request =>
      let now ← readNow command.now
      match action request command.reviewerId (trim command.note) now with
      | .error error => return .error error
      | .ok updated => do
        saveRequest updated request.status
        return .ok updated

/-- Approves a request. -/
def ApproveVerification.execute :
    ReviewerCommand → ReviewProgram (Except VerificationError VerificationRequest) :=
  actOnRequest "A rationale note is required to approve a verification request."
    VerificationRequest.approve

/-- Rejects a request. -/
def RejectVerification.execute :
    ReviewerCommand → ReviewProgram (Except VerificationError VerificationRequest) :=
  actOnRequest "A rationale note is required to reject a verification request."
    VerificationRequest.reject

/-- Asks the subject of a request for more. -/
def RequestMoreInformation.execute :
    ReviewerCommand → ReviewProgram (Except VerificationError VerificationRequest) :=
  actOnRequest "A note describing the missing information is required."
    VerificationRequest.requestMoreInformation

/-! ## All together -/

/-- A use case that is executed. -/
inductive ReviewCommand where
  | runAutomatedCheck (command : RunAutomatedCheckCommand)
  | claimNextReviewCase (command : ClaimNextReviewCaseCommand)
  | approveVerification (command : ReviewerCommand)
  | rejectVerification (command : ReviewerCommand)
  | requestMoreInformation (command : ReviewerCommand)
  deriving DecidableEq

/-- What a use case returns. -/
def ReviewCommand.Result : ReviewCommand → Type
  | .runAutomatedCheck _ => Except VerificationError RunAutomatedCheckResult
  | .claimNextReviewCase _ => ClaimNextOutcome
  | .approveVerification _ => Except VerificationError VerificationRequest
  | .rejectVerification _ => Except VerificationError VerificationRequest
  | .requestMoreInformation _ => Except VerificationError VerificationRequest

/-- The program of a use case. -/
def ReviewCommand.program (policy : ClaimNextReviewCasePolicy) :
    (command : ReviewCommand) → ReviewProgram command.Result
  | .runAutomatedCheck command => RunAutomatedCheck.execute command
  | .claimNextReviewCase command => ClaimNextReviewCase.execute policy command
  | .approveVerification command => ApproveVerification.execute command
  | .rejectVerification command => RejectVerification.execute command
  | .requestMoreInformation command => RequestMoreInformation.execute command

/-- Any number of use cases at work on one store. -/
abbrev ReviewPool := Pool ReviewStore ReviewCall ReviewCall.Answer ReviewCommand.Result

/-- One step of the use cases. -/
def ReviewPool.step (policy : ClaimNextReviewCasePolicy) :
    ReviewPool → PoolEvent ReviewCommand ReviewInput → Option ReviewPool :=
  Pool.step ReviewStore.serve (ReviewCommand.program policy)

end Verixa.Verification
