import Verixa.Concurrency.Run
import Verixa.Verification.VerificationRequestMapper

/-!
# The lifecycle of a verification request

A request is opened and then moved on by the operations of its class, in any order and at any
instants; an operation that is refused leaves it as it is.  The decision, the note and the claim of
a request fit its status all along, a decided request is moved on no more, and what is stored of a
request is what is read back.
-/

namespace Verixa.Verification

open Concurrency

/-- An operation on a request, with its arguments and what the clock shows. -/
inductive VerificationOperation where
  | submit (now : ℤ)
  | startReview (now : ℤ)
  | reopenForEvidence (now later : ℤ)
  | claimBy (reviewerId : String) (now : ℤ) (ttlMs : Option Number)
  | approve (reviewerId note : String) (now : ℤ)
  | reject (reviewerId note : String) (now : ℤ)
  | requestMoreInformation (reviewerId note : String) (now : ℤ)
  deriving DecidableEq

/-- What an operation makes of a request. -/
def VerificationOperation.apply (operation : VerificationOperation)
    (request : VerificationRequest) : Except VerificationError VerificationRequest :=
  match operation with
  | .submit now => request.submit now
  | .startReview now => request.startReview now
  | .reopenForEvidence now later => request.reopenForEvidence now later
  | .claimBy reviewerId now ttlMs => request.claimBy reviewerId now ttlMs
  | .approve reviewerId note now => request.approve reviewerId note now
  | .reject reviewerId note now => request.reject reviewerId note now
  | .requestMoreInformation reviewerId note now =>
    request.requestMoreInformation reviewerId note now

/-- A request is moved on by an operation that succeeds. -/
def lifecycleStep (request : VerificationRequest) (operation : VerificationOperation) :
    Option VerificationRequest :=
  (operation.apply request).toOption

/-- The status from which a status is reached. -/
def VerificationStatus.source : VerificationStatus → VerificationStatus
  | .pendingEvidence => .needsMoreInfo
  | .submitted => .pendingEvidence
  | .inReview => .submitted
  | .needsMoreInfo => .inReview
  | .approved => .inReview
  | .rejected => .inReview

/-- Every status is reached from one status only. -/
theorem VerificationStatus.eq_source_of_canTransitionTo {status next : VerificationStatus}
    (h : status.canTransitionTo next = true) : status = next.source := by
  revert h
  cases status <;> cases next <;> decide

namespace VerificationRequest

variable {request next : VerificationRequest}

/-! ## What each operation does -/

theorem transitionTo_ok {status : VerificationStatus} {now : ℤ}
    (h : request.transitionTo status now = .ok next) :
    request.status = status.source ∧
      next = { request with status := status, updatedAt := now, domainEvents := [] } := by
  unfold transitionTo at h
  split at h <;> cases h
  rename_i hallowed
  exact ⟨VerificationStatus.eq_source_of_canTransitionTo (by simpa using hallowed), rfl⟩

theorem reopenForEvidence_ok {now later : ℤ} (h : request.reopenForEvidence now later = .ok next) :
    request.status = .needsMoreInfo ∧
      next = { request with
        status := .pendingEvidence, needsMoreInfoNote := none, updatedAt := later,
        domainEvents := [] } := by
  unfold reopenForEvidence at h
  split at h <;> cases h
  rename_i transitioned htransitioned
  obtain ⟨hstatus, rfl⟩ := transitionTo_ok htransitioned
  exact ⟨hstatus, rfl⟩

/-- A claim that was taken is one of the reviewer on the request, which is in review and on which no
other claim is active. -/
theorem claimBy_eq_ok {reviewerId : String} {now : ℤ} {ttlMs : Option Number}
    (h : request.claimBy reviewerId now ttlMs = .ok next) :
    request.status = .inReview ∧
      (∀ assignment, request.assignment = some assignment → assignment.isActiveAt now = false) ∧
      ∃ claim, ReviewAssignment.claim request.id reviewerId now ttlMs = .ok claim ∧
        next = { request with assignment := some claim, updatedAt := now, domainEvents := [] } := by
  unfold claimBy at h
  split at h
  · cases h
  · rename_i hstatus
    split at h
    · cases h
    · rename_i hfree
      split at h <;> cases h
      rename_i claim hclaim
      refine ⟨not_not.mp hstatus, fun assignment hassignment => ?_, claim, hclaim, rfl⟩
      rw [hassignment, Option.filter_eq_none_iff] at hfree
      simpa using hfree assignment rfl

/-- A claim is on the request it was taken on, and of the reviewer who took it. -/
theorem claim_ok {requestId reviewerId : String} {assignedAt : ℤ} {ttlMs : Option Number}
    {claim : ReviewAssignment}
    (h : ReviewAssignment.claim requestId reviewerId assignedAt ttlMs = .ok claim) :
    claim.requestId = requestId ∧ claim.reviewerId = reviewerId := by
  unfold ReviewAssignment.claim at h
  split at h
  · split at h <;> cases h
    exact ⟨rfl, rfl⟩
  · cases h

/-- The reviewer who may decide holds an active claim. -/
theorem decisionNotPermitted_eq_none {reviewerId : String} {now : ℤ}
    (h : request.decisionNotPermitted reviewerId now = none) :
    ∃ claim, request.assignment = some claim ∧ claim.isActiveAt now = true ∧
      claim.reviewerId = reviewerId := by
  unfold decisionNotPermitted at h
  split at h
  · rename_i hheld
    obtain ⟨claim, hclaim, hactive⟩ := (Option.any_eq_true _ _).mp hheld
    rw [Bool.and_eq_true] at hactive
    exact ⟨claim, hclaim, hactive.1, by simpa [ReviewAssignment.isHeldBy] using hactive.2⟩
  · cases h

theorem decide_eq_ok {outcome : VerificationStatus} {reviewerId note : String} {now : ℤ}
    (h : request.decide outcome reviewerId note now = .ok next) :
    request.status = outcome.source ∧ request.decisionNotPermitted reviewerId now = none ∧
      ∃ events, next = { request with
        status := outcome, assignment := none, decision := some ⟨reviewerId, now, note⟩,
        updatedAt := now, domainEvents := events } := by
  unfold decide at h
  split at h
  · cases h
  · rename_i hallowed
    split at h <;> cases h
    rename_i hpermitted
    exact ⟨VerificationStatus.eq_source_of_canTransitionTo (by simpa using hallowed), hpermitted,
      _, rfl⟩

theorem requestMoreInformation_eq_ok {reviewerId note : String} {now : ℤ}
    (h : request.requestMoreInformation reviewerId note now = .ok next) :
    request.status = .inReview ∧ request.decisionNotPermitted reviewerId now = none ∧
      next = { request with
        status := .needsMoreInfo, assignment := none, needsMoreInfoNote := some note,
        updatedAt := now, domainEvents := [] } := by
  unfold requestMoreInformation at h
  split at h
  · cases h
  · rename_i hallowed
    split at h <;> cases h
    rename_i hpermitted
    exact ⟨VerificationStatus.eq_source_of_canTransitionTo (by simpa using hallowed), hpermitted,
      rfl⟩

/-! ## What fits together keeps fitting -/

theorem Consistent.decision_eq_none (h : request.Consistent) (hopen : request.isTerminal = false) :
    request.decision = none := by
  have hdecision := h.decision
  rwa [hopen, Option.isSome_eq_false_iff, Option.isNone_iff_eq_none] at hdecision

theorem Consistent.note_eq_none (h : request.Consistent)
    (hstatus : request.status ≠ .needsMoreInfo) : request.needsMoreInfoNote = none := by
  have hnote := h.note
  rwa [decide_eq_false hstatus, Option.isSome_eq_false_iff, Option.isNone_iff_eq_none] at hnote

theorem Consistent.assignment_eq_none (h : request.Consistent)
    (hstatus : request.status ≠ .inReview) : request.assignment = none := by
  by_contra hassignment
  exact hstatus (h.assignment (Option.isSome_iff_ne_none.mpr hassignment))

/-- Moving on to a status that is neither decided nor waits for more. -/
theorem Consistent.transitionTo (h : request.Consistent) {status : VerificationStatus} {now : ℤ}
    (hok : request.transitionTo status now = .ok next)
    (hstatus : status = .submitted ∨ status = .inReview) : next.Consistent := by
  obtain ⟨hsource, rfl⟩ := transitionTo_ok hok
  have hplain : request.status ≠ .needsMoreInfo ∧ request.status ≠ .inReview ∧
      request.status.isTerminal = false ∧ status ≠ .needsMoreInfo ∧ status.isTerminal = false := by
    rcases hstatus with rfl | rfl <;> rw [hsource] <;> decide
  obtain ⟨hnote, hreview, hopen, hnext, hnextOpen⟩ := hplain
  have hassignment := h.assignment_eq_none hreview
  refine ⟨?_, ?_, fun hsome => ?_, fun assignment hsome => ?_⟩
  · simpa [h.decision_eq_none hopen, isTerminal] using hnextOpen.symm
  · simp [h.note_eq_none hnote, hnext]
  · simp [hassignment] at hsome
  · exact h.claim assignment hsome

/-- Deciding. -/
theorem Consistent.decide (h : request.Consistent) {outcome : VerificationStatus}
    {reviewerId note : String} {now : ℤ}
    (hok : request.decide outcome reviewerId note now = .ok next)
    (houtcome : outcome.isTerminal = true) : next.Consistent := by
  obtain ⟨hsource, -, events, rfl⟩ := decide_eq_ok hok
  have hstatus : request.status ≠ .needsMoreInfo ∧ outcome ≠ .needsMoreInfo := by
    rw [hsource]
    clear * - houtcome
    revert houtcome
    cases outcome <;> decide
  refine ⟨?_, ?_, fun hsome => ?_, fun assignment hsome => ?_⟩
  · simpa [isTerminal] using houtcome.symm
  · simp [h.note_eq_none hstatus.1, hstatus.2]
  · cases hsome
  · cases hsome

/-- Every operation keeps the fields fitting. -/
theorem Consistent.apply (h : request.Consistent) {operation : VerificationOperation}
    (hok : operation.apply request = .ok next) : next.Consistent := by
  cases operation with
  | submit now => exact h.transitionTo hok (.inl rfl)
  | startReview now => exact h.transitionTo hok (.inr rfl)
  | reopenForEvidence now later =>
    obtain ⟨hstatus, rfl⟩ := reopenForEvidence_ok hok
    have hassignment := h.assignment_eq_none (by rw [hstatus]; decide)
    have hdecision := h.decision_eq_none (by rw [isTerminal, hstatus]; rfl)
    refine ⟨?_, rfl, fun hsome => ?_, h.claim⟩
    · simp [hdecision, isTerminal, VerificationStatus.isTerminal,
        VerificationStatus.allowedTransitions]
    · simp [hassignment] at hsome
  | claimBy reviewerId now ttlMs =>
    obtain ⟨hstatus, -, claim, hclaim, rfl⟩ := claimBy_eq_ok hok
    refine ⟨h.decision, h.note, fun _ => hstatus, fun assignment hsome => ?_⟩
    obtain rfl := Option.some.inj hsome
    exact (claim_ok hclaim).1
  | approve reviewerId note now => exact h.decide hok rfl
  | reject reviewerId note now => exact h.decide hok rfl
  | requestMoreInformation reviewerId note now =>
    obtain ⟨hstatus, -, rfl⟩ := requestMoreInformation_eq_ok hok
    have hdecision := h.decision_eq_none (by rw [isTerminal, hstatus]; rfl)
    refine ⟨?_, rfl, fun hsome => ?_, fun assignment hsome => ?_⟩
    · simp [hdecision, isTerminal, VerificationStatus.isTerminal,
        VerificationStatus.allowedTransitions]
    · cases hsome
    · cases hsome

/-- No operation moves a decided request on. -/
theorem apply_of_isTerminal (h : request.isTerminal = true) (operation : VerificationOperation) :
    ∃ error, operation.apply request = .error error := by
  cases hresult : operation.apply request with
  | error error => exact ⟨error, rfl⟩
  | ok next =>
    have hopen : request.isTerminal = false := by
      cases operation with
      | submit now =>
        rw [isTerminal, (transitionTo_ok hresult).1]
        rfl
      | startReview now => exact (startReview_ok hresult).undecided
      | reopenForEvidence now later =>
        rw [isTerminal, (reopenForEvidence_ok hresult).1]
        rfl
      | claimBy reviewerId now ttlMs => exact (claimBy_ok hresult).undecided
      | approve reviewerId note now => exact (decide_ok hresult).1.undecided
      | reject reviewerId note now => exact (decide_ok hresult).1.undecided
      | requestMoreInformation reviewerId note now =>
        exact (requestMoreInformation_ok hresult).undecided
    rw [h] at hopen
    cases hopen

/-- A new request is consistent. -/
theorem consistent_request (id subjectUserId organizationId : String) (type : VerificationType)
    (now : ℤ) : (VerificationRequest.request id subjectUserId organizationId type now).Consistent :=
  ⟨rfl, rfl, nofun, nofun⟩

end VerificationRequest

open VerificationRequest in
/-- Whatever is done with a new request, its decision, its note and its claim fit its status; once
it is decided, every operation is refused; and its row is read back as the same request. -/
theorem lifecycle_consistent {id subjectUserId organizationId : String} {type : VerificationType}
    {now : ℤ} {request : VerificationRequest}
    (hrun : Run lifecycleStep
      (VerificationRequest.request id subjectUserId organizationId type now) request) :
    request.Consistent ∧
      (request.isTerminal = true →
        ∀ operation : VerificationOperation, ∃ error, operation.apply request = .error error) ∧
      (VerificationRequestMapper.toRow request).bind VerificationRequestMapper.toDomain =
        .ok { request with domainEvents := [] } := by
  have hconsistent : request.Consistent := by
    refine hrun.invariant (consistent_request id subjectUserId organizationId type now) ?_
    intro before operation after hbefore _ hstep
    cases hresult : operation.apply before with
    | error error =>
      rw [lifecycleStep, hresult] at hstep
      cases hstep
    | ok next =>
      rw [lifecycleStep, hresult] at hstep
      obtain rfl := Option.some.inj hstep
      exact hbefore.apply hresult
  exact ⟨hconsistent, apply_of_isTerminal, VerificationRequestMapper.toDomain_toRow hconsistent⟩

/-- A request that waited for more, was taken up again, claimed and approved. -/
def sampleLifecycle : VerificationRequest :=
  (exec lifecycleStep (VerificationRequest.request "r1" "u1" "o1" .identityDocument 0)
    [.submit 1, .startReview 2, .claimBy "ada" 3 none, .requestMoreInformation "ada" "blurred" 4,
      .reopenForEvidence 5 6, .submit 7, .startReview 8, .claimBy "ada" 9 none,
      .approve "ada" "clear" 10]).get (by decide +kernel)

theorem lifecycle_consistent_sample :
    sampleLifecycle.status = .approved ∧ sampleLifecycle.Consistent ∧
      (sampleLifecycle.isTerminal = true → ∀ operation : VerificationOperation,
        ∃ error, operation.apply sampleLifecycle = .error error) ∧
      (VerificationRequestMapper.toRow sampleLifecycle).bind VerificationRequestMapper.toDomain =
        .ok { sampleLifecycle with domainEvents := [] } :=
  ⟨by decide +kernel, lifecycle_consistent (runWhile_get _)⟩

end Verixa.Verification
