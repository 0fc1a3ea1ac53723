import Verixa.Encoding.Text
import Verixa.SharedKernel.Errors
import Verixa.SharedKernel.Number
import Verixa.SharedKernel.Record

/-!
# Verification requests

A subject asks to have something verified, evidence is checked, and a reviewer who holds a claim on
the request decides it.  The status of a request moves along a table of transitions, from which
decided requests have none; every operation returns a new request or an error.
-/

namespace Verixa.Verification

/-! ## Statuses -/

inductive VerificationStatus where
  | pendingEvidence
  | submitted
  | inReview
  | needsMoreInfo
  | approved
  | rejected
  deriving DecidableEq

namespace VerificationStatus

/-- The text of a status. -/
def text : VerificationStatus → String
  | .pendingEvidence => "pending_evidence"
  | .submitted => "submitted"
  | .inReview => "in_review"
  | .needsMoreInfo => "needs_more_info"
  | .approved => "approved"
  | .rejected => "rejected"

/-- `ALL_STATUSES`. -/
def allStatuses : List VerificationStatus :=
  [.pendingEvidence, .submitted, .inReview, .needsMoreInfo, .approved, .rejected]

/-- `TERMINAL_STATUSES`. -/
def terminalStatuses : List VerificationStatus := [.approved, .rejected]

/-- The status with a given text, if there is one. -/
def ofText? (text : String) : Option VerificationStatus :=
  allStatuses.find? fun status => status.text = text

@[simp] theorem ofText?_text (status : VerificationStatus) : ofText? status.text = some status := by
  cases status <;> decide

/-- `ALLOWED_TRANSITIONS`. -/
def allowedTransitions : VerificationStatus → List VerificationStatus
  | .pendingEvidence => [.submitted]
  | .submitted => [.inReview]
  | .inReview => [.approved, .rejected, .needsMoreInfo]
  | .needsMoreInfo => [.pendingEvidence]
  | .approved => []
  | .rejected => []

def canTransitionTo (status next : VerificationStatus) : Bool :=
  status.allowedTransitions.contains next

/-- No further transition is possible. -/
def isTerminal (status : VerificationStatus) : Bool := status.allowedTransitions.isEmpty

/-- What moves on was not terminal. -/
theorem isTerminal_of_canTransitionTo {status next : VerificationStatus}
    (h : status.canTransitionTo next = true) : status.isTerminal = false := by
  cases status <;> first | rfl | cases h

end VerificationStatus

inductive VerificationType where
  | identityDocument
  | address
  | liveness
  deriving DecidableEq

/-- The text of a type. -/
def VerificationType.text : VerificationType → String
  | .identityDocument => "identity-document"
  | .address => "address"
  | .liveness => "liveness"

/-! ## Errors -/

/-- What a use case returns instead of a request. -/
inductive VerificationError where
  | validation (error : ValidationError)
  | notFound (message : String)
  | invalidStatusTransition (source target : VerificationStatus)
  | reviewClaimConflict (requestId heldBy : String)
  | reviewDecisionNotPermitted (requestId : String)
  deriving DecidableEq

/-- The message of an error. -/
def VerificationError.message : VerificationError → String
  | .validation error => error.message
  | .notFound message => message
  | .invalidStatusTransition source target =>
    "Cannot transition verification request from \"" ++ source.text ++ "\" to \"" ++ target.text ++
      "\"."
  | .reviewClaimConflict requestId heldBy =>
    "Verification request " ++ requestId ++ " is already claimed by reviewer " ++ heldBy ++ "."
  | .reviewDecisionNotPermitted requestId =>
    "Reviewer does not hold an active claim on verification request " ++ requestId ++
      ", so cannot decide it."

/-! ## Claims -/

/-- How long a claim lasts unless said otherwise. -/
def DEFAULT_CLAIM_TTL_MS : Number := .finite (15 * 60 * 1000)

/-- `new Date(time)`: the whole milliseconds, if they are in the range of dates. -/
def timeClip (time : ℚ) : Option ℤ :=
  if |time| ≤ 8640000000000000 then some (if 0 ≤ time then ⌊time⌋ else ⌈time⌉) else none

/-- A claim of a reviewer; a claim until an invalid date is never active. -/
structure ReviewAssignment where
  requestId : String
  reviewerId : String
  assignedAt : ℤ
  claimExpiresAt : Option ℤ
  deriving DecidableEq

namespace ReviewAssignment

/-- A new claim. -/
def claim (requestId reviewerId : String) (assignedAt : ℤ) (ttlMs : Option Number) :
    Except VerificationError ReviewAssignment :=
  let invalid : ValidationError :=
    ⟨"Claim duration must be a positive number of milliseconds.", [("claimTtlMs", ["invalid"])]⟩
  match ttlMs.getD DEFAULT_CLAIM_TTL_MS with
  | .finite ttlMs =>
    if ttlMs ≤ 0 then .error (.validation invalid)
    else .ok ⟨requestId, reviewerId, assignedAt, timeClip (assignedAt + ttlMs)⟩
  | _ => .error (.validation invalid)

def isActiveAt (assignment : ReviewAssignment) (now : ℤ) : Bool :=
  assignment.claimExpiresAt.any fun expiresAt => now < expiresAt

def isExpiredAt (assignment : ReviewAssignment) (now : ℤ) : Bool := !assignment.isActiveAt now

def isHeldBy (assignment : ReviewAssignment) (reviewerId : String) : Bool :=
  decide (assignment.reviewerId = reviewerId)

end ReviewAssignment

/-! ## Requests -/

/-- The outcome of a review. -/
structure VerificationDecision where
  decidedBy : String
  decidedAt : ℤ
  note : String
  deriving DecidableEq

/-- The event of a decision. -/
structure VerificationDecided where
  requestId : String
  subjectUserId : String
  organizationId : String
  verificationType : VerificationType
  decision : VerificationStatus
  decidedBy : String
  decidedAt : ℤ
  note : String
  deriving DecidableEq

structure VerificationRequest where
  id : String
  subjectUserId : String
  organizationId : String
  type : VerificationType
  status : VerificationStatus
  assignment : Option ReviewAssignment := none
  decision : Option VerificationDecision := none
  needsMoreInfoNote : Option String := none
  createdAt : ℤ
  updatedAt : ℤ
  domainEvents : List VerificationDecided := []
  deriving DecidableEq

namespace VerificationRequest

/-- The request is decided. -/
def isTerminal (request : VerificationRequest) : Bool := request.status.isTerminal

def isClaimableAt (request : VerificationRequest) (now : ℤ) : Bool :=
  decide (request.status = .inReview) &&
    request.assignment.all fun assignment => assignment.isExpiredAt now

/-- Moves to the next status, if that is allowed; `now` is what the clock shows then. -/
def transitionTo (request : VerificationRequest) (next : VerificationStatus) (now : ℤ) :
    Except VerificationError VerificationRequest :=
  if !request.status.canTransitionTo next then
    .error (.invalidStatusTransition request.status next)
  else .ok { request with status := next, updatedAt := now, domainEvents := [] }

/-- Opens a new request; `id` and `now` are what is made for it. -/
def request (id subjectUserId organizationId : String) (type : VerificationType) (now : ℤ) :
    VerificationRequest :=
  { id := id, subjectUserId := subjectUserId, organizationId := organizationId, type := type,
    status := .pendingEvidence, createdAt := now, updatedAt := now }

/-- Rebuilds a request from what was stored, if the fields agree with each other. -/
def reconstitute (props : VerificationRequest) : Except ThrownError VerificationRequest :=
  if VerificationStatus.terminalStatuses.contains props.status != props.decision.isSome then
    .error { message := "VerificationRequest " ++ props.id ++ " has status \"" ++
      props.status.text ++ "\" but " ++ (if props.decision.isSome then "a" else "no") ++
      " recorded decision. Review state is inconsistent." }
  else if Decidable.decide (props.status = .needsMoreInfo) != props.needsMoreInfoNote.isSome then
    .error { message := "VerificationRequest " ++ props.id ++ " has status \"" ++
      props.status.text ++ "\" but " ++ (if props.needsMoreInfoNote.isSome then "a" else "no") ++
      " needs-more-info note." }
  else if props.assignment.isSome && !Decidable.decide (props.status = .inReview) then
    .error { message := "VerificationRequest " ++ props.id ++
      " holds a review assignment but is not in_review." }
  else .ok { props with domainEvents := [] }

/-- All the evidence is there. -/
def submit (request : VerificationRequest) (now : ℤ) :
    Except VerificationError VerificationRequest :=
  request.transitionTo .submitted now

/-- The subject was asked for more, and takes it up; the clock is read for both copies. -/
def reopenForEvidence (request : VerificationRequest) (now later : ℤ) :
    Except VerificationError VerificationRequest :=
  match request.transitionTo .pendingEvidence now with
  | .error error => .error error
  | .ok transitioned =>
    .ok { transitioned with needsMoreInfoNote := none, updatedAt := later, domainEvents := [] }

/-- The automated check has run. -/
def startReview (request : VerificationRequest) (now : ℤ) :
    Except VerificationError VerificationRequest :=
  request.transitionTo .inReview now

/-- Takes a claim on a request in review. -/
def claimBy (request : VerificationRequest) (reviewerId : String) (now : ℤ)
    (ttlMs : Option Number) : Except VerificationError VerificationRequest :=
  if request.status ≠ .inReview then
    .error (.invalidStatusTransition request.status .inReview)
  else
    match request.assignment.filter fun existing => existing.isActiveAt now with
    | some existing => .error (.reviewClaimConflict request.id existing.reviewerId)
    | none =>
      match ReviewAssignment.claim request.id reviewerId now ttlMs with
      | .error error => .error error
      | .ok claim =>
        .ok { request with assignment := some claim, updatedAt := now, domainEvents := [] }

/-- Why a reviewer may not decide, if he may not: he does not hold an active claim. -/
def decisionNotPermitted (request : VerificationRequest) (reviewerId : String) (now : ℤ) :
    Option VerificationError :=
  if request.assignment.any fun claim => claim.isActiveAt now && claim.isHeldBy reviewerId then none
  else some (.reviewDecisionNotPermitted request.id)

/-- Decides the request. -/
def decide (request : VerificationRequest) (outcome : VerificationStatus) (reviewerId note : String)
    (now : ℤ) : Except VerificationError VerificationRequest :=
  if !request.status.canTransitionTo outcome then
    .error (.invalidStatusTransition request.status outcome)
  else
    match request.decisionNotPermitted reviewerId now with
    | some notPermitted => .error notPermitted
    | none =>
      let decided : VerificationDecided :=
        { requestId := request.id, subjectUserId := request.subjectUserId,
          organizationId := request.organizationId, verificationType := request.type,
          decision := outcome, decidedBy := reviewerId, decidedAt := now, note := note }
      .ok { request with
        status := outcome, assignment := none, decision := some ⟨reviewerId, now, note⟩,
        updatedAt := now, domainEvents := [decided] }

/-- Approves the request. -/
def approve (request : VerificationRequest) (reviewerId note : String) (now : ℤ) :
    Except VerificationError VerificationRequest :=
  request.decide .approved reviewerId note now

/-- Rejects the request. -/
def reject (request : VerificationRequest) (reviewerId note : String) (now : ℤ) :
    Except VerificationError VerificationRequest :=
  request.decide .rejected reviewerId note now

/-- Asks the subject for more. -/
def requestMoreInformation (request : VerificationRequest) (reviewerId note : String) (now : ℤ) :
    Except VerificationError VerificationRequest :=
  if !request.status.canTransitionTo .needsMoreInfo then
    .error (.invalidStatusTransition request.status .needsMoreInfo)
  else
    match request.decisionNotPermitted reviewerId now with
    | some notPermitted => .error notPermitted
    | none =>
      .ok { request with
        status := .needsMoreInfo, assignment := none, needsMoreInfoNote := some note,
        updatedAt := now, domainEvents := [] }

/-! ## What the operations keep -/

variable {request next : VerificationRequest}

/-- A request that an operation has moved on was not decided, and is the same request. -/
structure MovedOn (request next : VerificationRequest) : Prop where
  id : next.id = request.id
  undecided : request.isTerminal = false

theorem startReview_ok {now : ℤ} (h : request.startReview now = .ok next) :
    MovedOn request next := by
  unfold startReview transitionTo at h
  split at h <;> cases h
  rename_i hallowed
  exact ⟨rfl, VerificationStatus.isTerminal_of_canTransitionTo (by simpa using hallowed)⟩

/-- What was decided has the status of the outcome. -/
theorem decide_ok {outcome : VerificationStatus} {reviewerId note : String} {now : ℤ}
    (h : request.decide outcome reviewerId note now = .ok next) :
    MovedOn request next ∧ next.status = outcome := by
  unfold decide at h
  split at h
  · cases h
  · rename_i hallowed
    split at h <;> cases h
    exact ⟨⟨rfl, VerificationStatus.isTerminal_of_canTransitionTo (by simpa using hallowed)⟩, rfl⟩

theorem requestMoreInformation_ok {reviewerId note : String} {now : ℤ}
    (h : request.requestMoreInformation reviewerId note now = .ok next) :
    MovedOn request next := by
  unfold requestMoreInformation at h
  split at h
  · cases h
  · rename_i hallowed
    split at h <;> cases h
    exact ⟨rfl, VerificationStatus.isTerminal_of_canTransitionTo (by simpa using hallowed)⟩

theorem claimBy_ok {reviewerId : String} {now : ℤ} {ttlMs : Option Number}
    (h : request.claimBy reviewerId now ttlMs = .ok next) : MovedOn request next := by
  unfold claimBy at h
  split at h
  · cases h
  · rename_i hstatus
    split at h
    · cases h
    · split at h <;> cases h
      refine ⟨rfl, ?_⟩
      rw [isTerminal, not_not.mp hstatus]
      rfl

end VerificationRequest

end Verixa.Verification
