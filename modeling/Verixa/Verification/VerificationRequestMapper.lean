import Verixa.Verification.VerificationRequest

/-!
# The rows of verification requests

A request as a row of the database.  The type is spelled differently there, and a claim and a
decision are split over nullable columns; reading a row back checks that they agree.
-/

namespace Verixa.Verification

/-- A row of `verification_requests`; a date that is no date passes through as such. -/
structure VerificationRequestRow where
  id : String
  subjectUserId : String
  organizationId : String
  type : String
  status : String
  assignedReviewerId : Option String
  assignedAt : Option ℤ
  claimExpiresAt : Option (Option ℤ)
  decidedByReviewerId : Option String
  decidedAt : Option ℤ
  decision : Option String
  decisionNote : Option String
  needsMoreInfoNote : Option String
  createdAt : ℤ
  updatedAt : ℤ
  deriving DecidableEq

namespace VerificationRequestMapper

/-- `DOMAIN_TO_DB_TYPE`. -/
def domainToDbType : List (VerificationType × String) :=
  [(.identityDocument, "identity_document"), (.address, "address"), (.liveness, "liveness")]

/-- `DB_TO_DOMAIN_TYPE`. -/
def dbToDomainType : List (String × VerificationType) :=
  [("identity_document", .identityDocument), ("address", .address), ("liveness", .liveness)]

/-- The type as the database spells it. -/
def toDbVerificationType (value : VerificationType) : Except ThrownError String :=
  match domainToDbType.lookup value with
  | some mapped => .ok mapped
  | none =>
    .error { message := "No database enum value mapped for verification type \"" ++ value.text ++
      "\"." }

/-- The type that the database spells so. -/
def fromDbVerificationType (value id : String) : Except ThrownError VerificationType :=
  match dbToDomainType.lookup value with
  | some mapped => .ok mapped
  | none =>
    .error { message := "verification_requests.id=" ++ id ++
      " holds a type the domain rejects: " ++ value ++ "." }

/-- The decision that is stored beside the status. -/
def decisionOf (status : VerificationStatus) : Option String :=
  if status = .approved ∨ status = .rejected then some status.text else none

/-- The row of a request. -/
def toRow (request : VerificationRequest) : Except ThrownError VerificationRequestRow := do
  let type ← toDbVerificationType request.type
  return {
    id := request.id
    subjectUserId := request.subjectUserId
    organizationId := request.organizationId
    type := type
    status := request.status.text
    assignedReviewerId := request.assignment.map ReviewAssignment.reviewerId
    assignedAt := request.assignment.map ReviewAssignment.assignedAt
    claimExpiresAt := request.assignment.map ReviewAssignment.claimExpiresAt
    decidedByReviewerId := request.decision.map VerificationDecision.decidedBy
    decidedAt := request.decision.map VerificationDecision.decidedAt
    decision := decisionOf request.status
    decisionNote := request.decision.map VerificationDecision.note
    needsMoreInfoNote := request.needsMoreInfoNote
    createdAt := request.createdAt
    updatedAt := request.updatedAt }

/-- The claim of a row, if none of its columns is null. -/
def assignmentOf (row : VerificationRequestRow) : Option ReviewAssignment :=
  match row.assignedReviewerId, row.assignedAt, row.claimExpiresAt with
  | some reviewerId, some assignedAt, some claimExpiresAt =>
    some ⟨row.id, reviewerId, assignedAt, claimExpiresAt⟩
  | _, _, _ => none

/-- The decision of a row, if none of its columns is null. -/
def recordedDecisionOf (row : VerificationRequestRow) : Option VerificationDecision :=
  match row.decidedByReviewerId, row.decidedAt, row.decisionNote with
  | some decidedBy, some decidedAt, some note => some ⟨decidedBy, decidedAt, note⟩
  | _, _, _ => none

/-- The request of a row. -/
def toDomain (row : VerificationRequestRow) : Except ThrownError VerificationRequest :=
  match VerificationStatus.ofText? row.status with
  | none =>
    .error { message := "verification_requests.id=" ++ row.id ++
      " holds a status the domain rejects." }
  | some status => do
    let type ← fromDbVerificationType row.type row.id
    VerificationRequest.reconstitute {
      id := row.id
      subjectUserId := row.subjectUserId
      organizationId := row.organizationId
      type := type
      status := status
      assignment := assignmentOf row
      decision := recordedDecisionOf row
      needsMoreInfoNote := row.needsMoreInfoNote
      createdAt := row.createdAt
      updatedAt := row.updatedAt }

end VerificationRequestMapper

/-! ## The fields that belong together -/

/-- The decision, the note and the claim of a request fit its status. -/
structure VerificationRequest.Consistent (request : VerificationRequest) : Prop where
  decision : request.decision.isSome = request.isTerminal
  note : request.needsMoreInfoNote.isSome = Decidable.decide (request.status = .needsMoreInfo)
  assignment : request.assignment.isSome = true → request.status = .inReview
  /-- A claim is one on the request that holds it. -/
  claim : ∀ assignment, request.assignment = some assignment → assignment.requestId = request.id

/-- The terminal statuses are those that allow no transition. -/
theorem VerificationStatus.contains_terminalStatuses (status : VerificationStatus) :
    terminalStatuses.contains status = status.isTerminal := by
  cases status <;> rfl

/-- What fits together is accepted back. -/
theorem VerificationRequest.Consistent.reconstitute {request : VerificationRequest}
    (h : request.Consistent) :
    VerificationRequest.reconstitute request = .ok { request with domainEvents := [] } := by
  have hassignment :
      (request.assignment.isSome && !Decidable.decide (request.status = .inReview)) = false := by
    cases hsome : request.assignment.isSome with
    | false => rfl
    | true => simp [h.assignment hsome]
  rw [VerificationRequest.reconstitute, VerificationStatus.contains_terminalStatuses, h.decision,
    h.note, hassignment]
  simp [VerificationRequest.isTerminal]

namespace VerificationRequestMapper

variable {request : VerificationRequest}

/-- Every type has a spelling in the database. -/
theorem fromDb_toDbVerificationType (type : VerificationType) (id : String) :
    ∃ text, toDbVerificationType type = .ok text ∧ fromDbVerificationType text id = .ok type := by
  cases type
  · exact ⟨"identity_document", rfl, rfl⟩
  · exact ⟨"address", rfl, rfl⟩
  · exact ⟨"liveness", rfl, rfl⟩

/-- The claim that was split over the columns of a row. -/
theorem assignmentOf_eq {row : VerificationRequestRow} {assignment : Option ReviewAssignment}
    (hreviewer : row.assignedReviewerId = assignment.map ReviewAssignment.reviewerId)
    (hat : row.assignedAt = assignment.map ReviewAssignment.assignedAt)
    (hexpires : row.claimExpiresAt = assignment.map ReviewAssignment.claimExpiresAt)
    (hid : ∀ claim, assignment = some claim → claim.requestId = row.id) :
    assignmentOf row = assignment := by
  rw [assignmentOf, hreviewer, hat, hexpires]
  cases assignment with
  | none => rfl
  | some claim => simp [← hid claim rfl]

/-- The decision that was split over the columns of a row. -/
theorem recordedDecisionOf_eq {row : VerificationRequestRow}
    {decision : Option VerificationDecision}
    (hby : row.decidedByReviewerId = decision.map VerificationDecision.decidedBy)
    (hat : row.decidedAt = decision.map VerificationDecision.decidedAt)
    (hnote : row.decisionNote = decision.map VerificationDecision.note) :
    recordedDecisionOf row = decision := by
  rw [recordedDecisionOf, hby, hat, hnote]
  cases decision <;> rfl

/-- The row of a consistent request is read back as the request, its events left out. -/
theorem toDomain_toRow (h : request.Consistent) :
    (toRow request).bind toDomain = .ok { request with domainEvents := [] } := by
  obtain ⟨text, hto, hfrom⟩ := fromDb_toDbVerificationType request.type request.id
  have hread : VerificationRequest.Consistent { request with domainEvents := [] } :=
    ⟨h.decision, h.note, h.assignment, h.claim⟩
  have hreconstitute := hread.reconstitute
  rw [toRow, hto]
  simp only [bind, Except.bind, pure, Except.pure, toDomain, VerificationStatus.ofText?_text, hfrom]
  rw [assignmentOf_eq rfl rfl rfl h.claim, recordedDecisionOf_eq rfl rfl rfl]
  exact hreconstitute

end VerificationRequestMapper

end Verixa.Verification
