import Verixa.Verification.DecisionFinality
import Verixa.Verification.VerificationLifecycle

/-!
# Review leases are exclusive

Reviewers claim the next case, each claim in one turn of the event loop, and decide cases that they
have found a turn before.  The instants that they name do not go back: those of claims, and those of
decisions when they are saved.

In such runs a claim is replaced by another only when it has expired, no reviewer who claims one
case at a time holds two, and the case that is claimed is one of the oldest.  What fails is that
every decision is one of the reviewer who holds the claim: two decisions that have found the same
case both succeed, the second on a case without a claim (`decided_without_claim`).  While every save
finds the stored request in the status in which it was found, this holds too (`leases_exclusive`).
-/

namespace Verixa.Verification

open Concurrency

/-! ## The desk -/

/-- What the reviewers have done to the store. -/
inductive ReviewDeed where
  | claimed (params : ClaimNextInReviewParams)
  | saved (request : VerificationRequest) (replaced : Option VerificationRequest)
  deriving DecidableEq

/-- A request with a claim was replaced. -/
def ReviewDeed.replacesClaimed : ReviewDeed → Bool
  | .saved _ (some replaced) => replaced.assignment.isSome
  | _ => false

/-- The store, the latest instant that was named, and what was done, the latest first. -/
structure ReviewDesk where
  review : ReviewStore
  latest : ℤ
  journal : List (ℕ × ReviewDeed)

/-- The instant that a call names, if it does. -/
def ReviewCall.instant? : ReviewCall → Option ℤ
  | .claimNextInReview params => some params.now
  | .save request _ => some request.updatedAt
  | _ => none

namespace ReviewDesk

/-- What a call does to the store. -/
def deeds (d : ReviewDesk) : ReviewCall → List ReviewDeed
  | .claimNextInReview params => [.claimed params]
  | .save request _ => [.saved request (d.review.requests.get? request.id)]
  | _ => []

/-- The desk answers as the store does. -/
def serve : Server ReviewDesk ReviewInput ReviewCall ReviewCall.Answer := fun i d q ω =>
  (d.review.serve i q ω).map fun answered =>
    (answered.1, ⟨answered.2, q.instant?.getD d.latest,
      (d.deeds q).map (Prod.mk i) ++ d.journal⟩)

/-- The instants do not go back. -/
def NonDecreasing (_ : ℕ) (d : ReviewDesk) (q : ReviewCall) (_ : ReviewInput) : Prop :=
  ∀ now ∈ q.instant?, d.latest ≤ now

/-- A request that is saved is stored as one in review. -/
def savesInReview (d : ReviewDesk) : ReviewCall → Bool
  | .save request _ =>
    (d.review.requests.get? request.id).any fun stored => stored.status = .inReview
  | _ => true

/-- The instants do not go back, and what is saved has not left the review before. -/
def NonDecreasingInReview (i : ℕ) (d : ReviewDesk) (q : ReviewCall) (ω : ReviewInput) : Prop :=
  NonDecreasing i d q ω ∧ d.savesInReview q = true

instance (i : ℕ) (d : ReviewDesk) (q : ReviewCall) (ω : ReviewInput) :
    Decidable (NonDecreasing i d q ω) :=
  inferInstanceAs (Decidable (∀ now ∈ q.instant?, d.latest ≤ now))

instance (i : ℕ) (d : ReviewDesk) (q : ReviewCall) (ω : ReviewInput) :
    Decidable (NonDecreasingInReview i d q ω) :=
  inferInstanceAs (Decidable (NonDecreasing i d q ω ∧ _))

end ReviewDesk

/-- The three decisions of a reviewer. -/
inductive ReviewerDecision where
  | approve
  | reject
  | requestMoreInformation
  deriving DecidableEq

/-- The use case of a decision. -/
def ReviewerDecision.execute : ReviewerDecision → ReviewerCommand →
    ReviewProgram (Except VerificationError VerificationRequest)
  | .approve => ApproveVerification.execute
  | .reject => RejectVerification.execute
  | .requestMoreInformation => RequestMoreInformation.execute

/-- What reviewers do at the desk. -/
inductive DeskCommand where
  | claimNextInReview (params : ClaimNextInReviewParams)
  | decide (decision : ReviewerDecision) (command : ReviewerCommand)
  deriving DecidableEq

namespace DeskCommand

/-- What is returned. -/
def Result : DeskCommand → Type
  | claimNextInReview _ => ClaimNextOutcome
  | decide _ _ => Except VerificationError VerificationRequest

instance : (c : DeskCommand) → DecidableEq c.Result
  | claimNextInReview _ => inferInstanceAs (DecidableEq ClaimNextOutcome)
  | decide _ _ => inferInstanceAs (DecidableEq (Except VerificationError VerificationRequest))

/-- The program. -/
def program : (c : DeskCommand) → ReviewProgram c.Result
  | .claimNextInReview params => Verification.claimNextInReview params
  | .decide decision command => decision.execute command

end DeskCommand

/-- Any number of reviewers at one desk. -/
abbrev DeskPool := Pool ReviewDesk ReviewCall ReviewCall.Answer DeskCommand.Result

/-- One step of the reviewers. -/
def DeskPool.step : DeskPool → PoolEvent DeskCommand ReviewInput → Option DeskPool :=
  Pool.step ReviewDesk.serve DeskCommand.program

/-! ## What is claimed -/

/-- The reviewer holds an active claim on the request. -/
def VerificationRequest.HasActiveClaimOf (request : VerificationRequest) (reviewerId : String)
    (now : ℤ) : Prop :=
  ∃ claim, request.assignment = some claim ∧ claim.isActiveAt now = true ∧
    claim.reviewerId = reviewerId

/-- The reviewer has only claimed one case at a time. -/
def ReviewDesk.OneAtATime (d : ReviewDesk) (reviewerId : String) : Prop :=
  ∀ i params, (i, ReviewDeed.claimed params) ∈ d.journal → params.reviewerId = reviewerId →
    params.oneAtATime = true

/-- From now on the reviewer holds at most one active claim of those that are stored. -/
def ReviewDesk.HoldsOne (d : ReviewDesk) (reviewerId : String) : Prop :=
  ∀ now, d.latest ≤ now → ∀ request ∈ d.review.requests.values,
    ∀ request' ∈ d.review.requests.values, request.HasActiveClaimOf reviewerId now →
      request'.HasActiveClaimOf reviewerId now → request = request'

/-- The request that is claimed was one of the oldest that could be claimed. -/
def ReviewStore.ClaimsOldest (s : ReviewStore) : Prop :=
  ∀ params claimed, (s.claimNextInReview params).1 = .claimed claimed →
    ∃ candidate, s.requests.get? claimed.id = some candidate ∧
      candidate.isClaimableAt params.now = true ∧ claimed.createdAt = candidate.createdAt ∧
      ∀ other ∈ s.requests.values, other.isClaimableAt params.now = true →
        candidate.createdAt ≤ other.createdAt

/-- The reviewer who has decided held an active claim on the request that he has replaced. -/
def ReviewDesk.DecidedByHolder (d : ReviewDesk) (i : ℕ) (command : ReviewerCommand)
    (updated : VerificationRequest) : Prop :=
  ∃ replaced, (i, ReviewDeed.saved updated (some replaced)) ∈ d.journal ∧
    replaced.id = command.requestId ∧
    replaced.HasActiveClaimOf command.reviewerId updated.updatedAt

/-- The leases are exclusive: what is said of a state of a run, and of a later one. -/
structure LeasesExclusive (P P' : DeskPool) : Prop where
  neverReplaced : ∀ id request request' claim claim',
    P.store.review.requests.get? id = some request → request.assignment = some claim →
    P'.store.review.requests.get? id = some request' → request'.assignment = some claim' →
    claim' ≠ claim → claim.isActiveAt claim'.assignedAt = false
  holdsOne : ∀ reviewerId, P'.store.OneAtATime reviewerId → P'.store.HoldsOne reviewerId
  claimsOldest : P'.store.review.ClaimsOldest
  decidedByHolder : ∀ i decision command updated,
    P'.returned i = some ⟨.decide decision command, .ok updated⟩ →
      P'.store.DecidedByHolder i command updated

/-! ## How a request moves on -/

/-- A claim that has expired stays expired. -/
theorem ReviewAssignment.isActiveAt_antitone {claim : ReviewAssignment} {now later : ℤ}
    (hle : now ≤ later) (h : claim.isActiveAt later = true) : claim.isActiveAt now = true := by
  obtain ⟨expiresAt, hexpires, hlater⟩ := (Option.any_eq_true _ _).mp h
  have hbefore : later < expiresAt := of_decide_eq_true hlater
  exact (Option.any_eq_true _ _).mpr
    ⟨expiresAt, hexpires, decide_eq_true (hle.trans_lt hbefore)⟩

/-- The instant at which a claim was taken. -/
theorem ReviewAssignment.assignedAt_of_claim {requestId reviewerId : String} {assignedAt : ℤ}
    {ttlMs : Option Number} {claim : ReviewAssignment}
    (h : ReviewAssignment.claim requestId reviewerId assignedAt ttlMs = .ok claim) :
    claim.assignedAt = assignedAt := by
  unfold ReviewAssignment.claim at h
  split at h
  · split at h <;> cases h
    rfl
  · cases h

/-- How a request is stored at two moments, between which the instants named lie in an interval. -/
structure MovesOn (start finish : ℤ) (before after : VerificationRequest) : Prop where
  settled : before.status ≠ .inReview → after.status ≠ .inReview ∧
    (after.assignment = none ∨ after.assignment = before.assignment)
  dropped : before.assignment ≠ none → after.assignment = none → after.status ≠ .inReview
  replaced : ∀ claim claim', before.assignment = some claim → after.assignment = some claim' →
    claim' = claim ∨
      (claim.isActiveAt claim'.assignedAt = false ∧ start ≤ claim'.assignedAt ∧
        claim'.assignedAt ≤ finish)

theorem MovesOn.refl (start finish : ℤ) (request : VerificationRequest) :
    MovesOn start finish request request where
  settled hstatus := ⟨hstatus, .inr rfl⟩
  dropped hsome hnone := absurd hnone hsome
  replaced _ _ hclaim hclaim' := .inl (Option.some.inj (hclaim'.symm.trans hclaim))

/-- A claim that was replaced twice had expired before the second time. -/
theorem MovesOn.trans {start middle finish : ℤ} {before between after : VerificationRequest}
    (hstart : start ≤ middle) (hfinish : middle ≤ finish) (h : MovesOn start middle before between)
    (h' : MovesOn middle finish between after) : MovesOn start finish before after := by
  refine ⟨fun hstatus => ?_, fun hsome hnone => ?_, fun claim claim' hclaim hclaim' => ?_⟩
  · obtain ⟨hsettled, hassignment⟩ := h.settled hstatus
    obtain ⟨hsettled', hassignment'⟩ := h'.settled hsettled
    refine ⟨hsettled', ?_⟩
    rcases hassignment' with hnone | hsame
    · exact .inl hnone
    · rw [hsame]
      exact hassignment
  · by_cases hbetween : between.assignment = none
    · exact (h'.settled (h.dropped hsome hbetween)).1
    · exact h'.dropped hbetween hnone
  · cases hbetween : between.assignment with
    | none =>
      have hdropped := h.dropped (by simp [hclaim]) hbetween
      rcases (h'.settled hdropped).2 with hnone | hsame
      · cases hnone.symm.trans hclaim'
      · cases hbetween.symm.trans (hsame.symm.trans hclaim')
    | some middleClaim =>
      have hlater := h'.replaced middleClaim claim' hbetween hclaim'
      rcases h.replaced claim middleClaim hclaim hbetween with rfl | ⟨hexpired, hfrom, huntil⟩
      · rcases hlater with rfl | ⟨hexpired', hfrom', huntil'⟩
        · exact .inl rfl
        · exact .inr ⟨hexpired', hstart.trans hfrom', huntil'⟩
      · rcases hlater with rfl | ⟨-, hfrom', huntil'⟩
        · exact .inr ⟨hexpired, hfrom, huntil.trans hfinish⟩
        · refine .inr ⟨?_, hstart.trans hfrom', huntil'⟩
          by_contra hactive
          have hstill := ReviewAssignment.isActiveAt_antitone (huntil.trans hfrom')
            (Bool.not_eq_false _ ▸ hactive)
          rw [hexpired] at hstill
          cases hstill

/-- A desk that comes later in a run: instants do not go back, and requests move on. -/
structure ReviewDesk.Later (d d' : ReviewDesk) : Prop where
  latest : d.latest ≤ d'.latest
  request : ∀ id before, d.review.requests.get? id = some before →
    ∃ after, d'.review.requests.get? id = some after ∧ MovesOn d.latest d'.latest before after

theorem ReviewDesk.Later.refl (d : ReviewDesk) : d.Later d :=
  ⟨le_rfl, fun _ before hbefore => ⟨before, hbefore, .refl _ _ before⟩⟩

theorem ReviewDesk.Later.trans {d d' d'' : ReviewDesk} (h : d.Later d') (h' : d'.Later d'') :
    d.Later d'' := by
  refine ⟨h.latest.trans h'.latest, fun id before hbefore => ?_⟩
  obtain ⟨between, hbetween, hmoves⟩ := h.request id before hbefore
  obtain ⟨after, hafter, hmoves'⟩ := h'.request id between hbetween
  exact ⟨after, hafter, hmoves.trans h.latest h'.latest hmoves'⟩

/-! ## What a claim does -/

section Claim

variable {s : ReviewStore} {params : ClaimNextInReviewParams} {claimed : VerificationRequest}

/-- The next claimable request is stored, and one of the oldest that can be claimed. -/
theorem of_nextClaimable {now : ℤ} {candidate : VerificationRequest}
    (h : s.nextClaimable now = some candidate) :
    s.requests.get? candidate.id = some candidate ∧ candidate.isClaimableAt now = true ∧
      ∀ other ∈ s.requests.values, other.isClaimableAt now = true →
        candidate.createdAt ≤ other.createdAt := by
  let claimable := s.requests.values.filter fun request => request.isClaimableAt now
  have hsorted := List.pairwise_insertionSort
    (fun a b : VerificationRequest => a.createdAt ≤ b.createdAt) claimable
  obtain ⟨rest, hrest⟩ := List.head?_eq_some_iff.mp h
  have hmem : candidate ∈ claimable :=
    (List.mem_insertionSort _).mp (hrest ▸ List.mem_cons_self)
  obtain ⟨hvalue, hclaimable⟩ := List.mem_filter.mp hmem
  refine ⟨KeyedMap.get?_of_mem_values hvalue, hclaimable, fun other hother hclaimable' => ?_⟩
  have hmem' : other ∈ candidate :: rest := by
    rw [← hrest]
    exact (List.mem_insertionSort _).mpr (List.mem_filter.mpr ⟨hother, hclaimable'⟩)
  rw [hrest] at hsorted
  rcases List.mem_cons.mp hmem' with rfl | hlater
  · exact le_rfl
  · exact (List.pairwise_cons.mp hsorted).1 other hlater

/-- What a claim of the next case has done, if it has claimed one. -/
inductive ClaimEnds (s : ReviewStore) (params : ClaimNextInReviewParams) :
    ClaimNextOutcome × ReviewStore → Prop
  | nothing {outcome : ClaimNextOutcome} (h : ∀ claimed, outcome ≠ .claimed claimed) :
      ClaimEnds s params (outcome, s)
  | claimed {candidate : VerificationRequest} {claim : ReviewAssignment}
      (hallowed : params.oneAtATime = true → s.activeClaimOf params.reviewerId params.now = none)
      (hnext : s.nextClaimable params.now = some candidate)
      (hstatus : candidate.status = .inReview)
      (hexpired : ∀ assignment, candidate.assignment = some assignment →
        assignment.isActiveAt params.now = false)
      (hclaim : ReviewAssignment.claim candidate.id params.reviewerId params.now
        (some params.claimTtlMs) = .ok claim) :
      ClaimEnds s params
        (.claimed { candidate with
            assignment := some claim, updatedAt := params.now, domainEvents := [] },
          { s with requests := s.requests.put { candidate with
            assignment := some claim, updatedAt := params.now, domainEvents := [] } })

theorem claimEnds_claimNextInReview (s : ReviewStore) (params : ClaimNextInReviewParams) :
    ClaimEnds s params (s.claimNextInReview params) := by
  unfold ReviewStore.claimNextInReview
  split
  · exact .nothing (by simp)
  rename_i hallowed
  split
  · exact .nothing (by simp)
  rename_i candidate hnext
  split
  · exact .nothing (by simp)
  rename_i claimed hclaimed
  obtain ⟨hstatus, hexpired, claim, hclaim, rfl⟩ := VerificationRequest.claimBy_eq_ok hclaimed
  refine .claimed (fun hone => ?_) hnext hstatus hexpired hclaim
  simpa [hone] using hallowed

/-- Who claims gets one of the oldest requests that can be claimed. -/
theorem claimsOldest (s : ReviewStore) : s.ClaimsOldest := by
  intro params claimed hclaimed
  have hends := claimEnds_claimNextInReview s params
  generalize s.claimNextInReview params = ended at hclaimed hends
  cases hends with
  | nothing h => exact absurd hclaimed (h claimed)
  | @claimed candidate claim _ hnext _ _ _ =>
    cases hclaimed
    obtain ⟨hstored, hclaimable, holdest⟩ := of_nextClaimable hnext
    exact ⟨candidate, hstored, hclaimable, rfl, holdest⟩

/-- No active claim was found, so none is stored. -/
theorem not_hasActiveClaimOf {reviewerId : String} {now : ℤ}
    (h : s.activeClaimOf reviewerId now = none) {request : VerificationRequest}
    (hrequest : request ∈ s.requests.values) : ¬request.HasActiveClaimOf reviewerId now := by
  rintro ⟨claim, hclaim, hactive, rfl⟩
  have hnone := List.find?_eq_none.mp h request hrequest
  simp [hclaim, hactive, ReviewAssignment.isHeldBy] at hnone

end Claim

/-! ## The law of the desk -/

/-- Whoever claims one case at a time holds at most one. -/
def ReviewDesk.LeasesHeld (d : ReviewDesk) : Prop :=
  ∀ reviewerId, d.OneAtATime reviewerId → d.HoldsOne reviewerId

/-- The law of the desk. -/
def leases : JournalLaw ReviewDesk ReviewDeed where
  journal := ReviewDesk.journal
  inv := ReviewDesk.LeasesHeld
  order := ReviewDesk.Later
  order_refl := ReviewDesk.Later.refl
  order_trans _ _ _ := ReviewDesk.Later.trans

/-- What a decision promises of a save: the request has left the review, and has no claim. -/
def LeavesReview (_ : ℕ) (_ : ReviewDesk) : ReviewCall → Prop
  | .save request _ => request.assignment = none ∧ request.status ≠ .inReview
  | _ => True

section Law

variable {i : ℕ} {d d' : ReviewDesk}

theorem isJournal_serve_desk : leases.IsJournal ReviewDesk.serve := by
  intro i d q ω r d' hserve
  obtain ⟨answered, -, hanswered⟩ := Option.map_eq_some_iff.mp hserve
  cases hanswered
  exact ⟨d.deeds q, rfl⟩

/-- A call that leaves the requests as they are and names no instant before the latest. -/
theorem later_of_same (hlatest : d.latest ≤ d'.latest)
    (hrequests : d'.review.requests = d.review.requests) : d.Later d' := by
  refine ⟨hlatest, fun id before hbefore => ⟨before, ?_, .refl _ _ before⟩⟩
  rw [hrequests]
  exact hbefore

/-- A request is put in the place of one from which it moves on. -/
theorem later_of_put {request : VerificationRequest} (hlatest : d.latest ≤ d'.latest)
    (hput : d'.review.requests = d.review.requests.put request)
    (hmoves : ∀ stored, d.review.requests.get? request.id = some stored →
      MovesOn d.latest d'.latest stored request) : d.Later d' := by
  refine ⟨hlatest, fun id before hbefore => ?_⟩
  rw [hput, KeyedMap.get?_put]
  split
  · rename_i hid
    exact ⟨request, rfl, hmoves before (hid ▸ hbefore)⟩
  · exact ⟨before, hbefore, .refl _ _ before⟩

/-- What is stored after a put is the new value or was stored before. -/
theorem mem_values_put {request other : VerificationRequest}
    {requests : KeyedMap VerificationRequest.id} (h : other ∈ (requests.put request).values) :
    other = request ∨ other ∈ requests.values := by
  rw [KeyedMap.mem_values_iff, KeyedMap.get?_put] at h
  split at h
  · exact .inl (Option.some.inj h).symm
  · exact .inr (KeyedMap.mem_values_iff.mpr h)

/-- Nothing was claimed, and the instants did not go back. -/
theorem leasesHeld_of_same (hinv : d.LeasesHeld) (hlatest : d.latest ≤ d'.latest)
    (hrequests : d'.review.requests = d.review.requests)
    (hjournal : ∀ entry ∈ d.journal, entry ∈ d'.journal) : d'.LeasesHeld := by
  intro reviewerId hone now hnow request hrequest request' hrequest' hheld hheld'
  rw [hrequests] at hrequest hrequest'
  exact hinv reviewerId (fun j params hmem => hone j params (hjournal _ hmem)) now
    (hlatest.trans hnow) request hrequest request' hrequest' hheld hheld'

/-- The claim of the next case keeps the law. -/
theorem keeps_claimNextInReview {params : ClaimNextInReviewParams} (hinv : d.LeasesHeld)
    (hlatest : d.latest ≤ params.now)
    (hd' : d' = ⟨(d.review.claimNextInReview params).2, params.now,
      (i, .claimed params) :: d.journal⟩) : d'.LeasesHeld ∧ d.Later d' := by
  have hends := claimEnds_claimNextInReview d.review params
  generalize d.review.claimNextInReview params = ended at hd' hends
  subst hd'
  cases hends with
  | nothing _ =>
    exact ⟨leasesHeld_of_same hinv hlatest rfl fun _ hentry => List.mem_cons_of_mem _ hentry,
      later_of_same hlatest rfl⟩
  | @claimed candidate claim hallowed hnext hstatus hexpired hclaim =>
    have hassigned := ReviewAssignment.assignedAt_of_claim hclaim
    have hreviewer := (VerificationRequest.claim_ok hclaim).2
    constructor
    · intro reviewerId hone now hnow request hrequest request' hrequest' hheld hheld'
      have hone' : d.OneAtATime reviewerId :=
        fun j params' hmem => hone j params' (List.mem_cons_of_mem _ hmem)
      have hnow : params.now ≤ now := hnow
      by_cases hsame : params.reviewerId = reviewerId
      · -- the reviewer held nothing at the instant of the claim, hence holds nothing but it
        have hallowed := hallowed (hone i params List.mem_cons_self hsame)
        have hnone : ∀ old ∈ d.review.requests.values, ¬old.HasActiveClaimOf reviewerId now := by
          rintro old hold ⟨held, hheld, hactive, hby⟩
          rw [hsame] at hallowed
          exact not_hasActiveClaimOf hallowed hold
            ⟨held, hheld, ReviewAssignment.isActiveAt_antitone hnow hactive, hby⟩
        rcases mem_values_put hrequest with rfl | hold
        · rcases mem_values_put hrequest' with rfl | hold'
          · rfl
          · exact absurd hheld' (hnone _ hold')
        · exact absurd hheld (hnone _ hold)
      · have hother : ∀ {request : VerificationRequest},
            request.HasActiveClaimOf reviewerId now → request ≠ { candidate with
              assignment := some claim, updatedAt := params.now, domainEvents := [] } := by
          rintro request ⟨held, hheld, -, hby⟩ rfl
          cases hheld
          exact hsame (hreviewer.symm.trans hby)
        exact hinv reviewerId hone' now (hlatest.trans hnow) request
          ((mem_values_put hrequest).resolve_left (hother hheld)) request'
          ((mem_values_put hrequest').resolve_left (hother hheld')) hheld hheld'
    · refine later_of_put hlatest rfl fun stored hstored => ?_
      obtain rfl : candidate = stored :=
        Option.some.inj ((of_nextClaimable hnext).1.symm.trans hstored)
      refine ⟨fun hleft => absurd hstatus hleft, (by rintro _ ⟨⟩), ?_⟩
      intro old new hold hnew
      cases hnew
      rw [hassigned]
      exact .inr ⟨hexpired old hold, hlatest, le_rfl⟩

/-- The save of a request that has left the review keeps the law. -/
theorem keeps_save {request : VerificationRequest} {deeds : List (ℕ × ReviewDeed)}
    (hinv : d.LeasesHeld) (hassignment : request.assignment = none)
    (hstatus : request.status ≠ .inReview) (hlatest : d.latest ≤ d'.latest)
    (hput : d'.review.requests = d.review.requests.put request)
    (hjournal : d'.journal = deeds ++ d.journal) : d'.LeasesHeld ∧ d.Later d' := by
  constructor
  · intro reviewerId hone now hnow old hold old' hold' hheld hheld'
    have hunclaimed : ∀ {other : VerificationRequest},
        other.HasActiveClaimOf reviewerId now → other ≠ request := by
      rintro other ⟨held, hheld, -, -⟩ rfl
      cases hassignment.symm.trans hheld
    rw [hput] at hold hold'
    refine hinv reviewerId (fun j params hmem => hone j params ?_) now (hlatest.trans hnow) old
      ((mem_values_put hold).resolve_left (hunclaimed hheld)) old'
      ((mem_values_put hold').resolve_left (hunclaimed hheld')) hheld hheld'
    rw [hjournal]
    exact List.mem_append_right _ hmem
  · refine later_of_put hlatest hput fun stored _ => ⟨fun _ => ⟨hstatus, .inl hassignment⟩,
      fun _ _ => hstatus, fun _ _ _ hsome => ?_⟩
    cases hassignment.symm.trans hsome

/-- Calls whose instants do not go back keep the law, when saved requests have left the review. -/
theorem keptBy_leases : leases.KeptBy ReviewDesk.serve ReviewDesk.NonDecreasing LeavesReview := by
  intro i d q ω r d' hinv hjust hallowed hserve
  obtain ⟨answered, hanswered, hd'⟩ := Option.map_eq_some_iff.mp hserve
  cases hd'
  cases q with
  | claimNextInReview params =>
    cases ω <;> cases hanswered
    exact keeps_claimNextInReview hinv (hallowed _ rfl) rfl
  | save request found =>
    cases ω <;> cases hanswered
    exact keeps_save hinv hjust.1 hjust.2 (hallowed _ rfl) rfl rfl
  | _ =>
    cases ω <;> cases hanswered
    exact ⟨leasesHeld_of_same hinv le_rfl rfl fun _ hentry => hentry, later_of_same le_rfl rfl⟩

end Law

/-! ## The walk through a decision -/

/-- The reviewer who has decided held an active claim on the request that he has replaced, if this
was still in review. -/
def ReviewDesk.DecidedInReview (d : ReviewDesk) (i : ℕ) (command : ReviewerCommand)
    (updated : VerificationRequest) : Prop :=
  ∃ replaced, (i, ReviewDeed.saved updated (some replaced)) ∈ d.journal ∧
    replaced.id = command.requestId ∧ (replaced.status = .inReview →
      replaced.HasActiveClaimOf command.reviewerId updated.updatedAt)

/-- What a decision has done when it returns. -/
def HasDecidedInReview (i : ℕ) (command : ReviewerCommand) (d : ReviewDesk)
    (result : Except VerificationError VerificationRequest) : Prop :=
  ∀ updated, result = .ok updated → d.DecidedInReview i command updated

/-- What a thread at the desk has done when it returns. -/
def AtDesk (i : ℕ) : (c : DeskCommand) → ReviewDesk → ReviewDesk → c.Result → Prop
  | .claimNextInReview _, _, _, _ => True
  | .decide _ command, _, d, result => HasDecidedInReview i command d result

/-- What a decision makes of a request that it accepts. -/
structure DecidesClaimed (action : ReviewerAction) : Prop where
  accepted : ∀ {request updated : VerificationRequest} {reviewerId note : String} {now : ℤ},
    action request reviewerId note now = .ok updated →
      updated.id = request.id ∧ updated.updatedAt = now ∧ updated.assignment = none ∧
        updated.status ≠ .inReview ∧ request.HasActiveClaimOf reviewerId now

theorem decidesClaimed_decide {outcome : VerificationStatus} (houtcome : outcome ≠ .inReview) :
    DecidesClaimed fun request => request.decide outcome where
  accepted h := by
    obtain ⟨-, hpermitted, events, rfl⟩ := VerificationRequest.decide_eq_ok h
    exact ⟨rfl, rfl, rfl, houtcome, VerificationRequest.decisionNotPermitted_eq_none hpermitted⟩

theorem decidesClaimed_requestMoreInformation :
    DecidesClaimed VerificationRequest.requestMoreInformation where
  accepted h := by
    obtain ⟨-, hpermitted, rfl⟩ := VerificationRequest.requestMoreInformation_eq_ok h
    exact ⟨rfl, rfl, rfl, nofun, VerificationRequest.decisionNotPermitted_eq_none hpermitted⟩

/-- A claim that is active later was not replaced before, while the request is in review. -/
theorem MovesOn.hasActiveClaimOf {start finish now : ℤ} {before after : VerificationRequest}
    {reviewerId : String} (h : MovesOn start finish before after) (hfinish : finish ≤ now)
    (hclaim : before.HasActiveClaimOf reviewerId now) (hstatus : after.status = .inReview) :
    after.HasActiveClaimOf reviewerId now := by
  obtain ⟨claim, hbefore, hactive, hreviewer⟩ := hclaim
  cases hafter : after.assignment with
  | none => exact absurd hstatus (h.dropped (by simp [hbefore]) hafter)
  | some claim' =>
    rcases h.replaced claim claim' hbefore hafter with rfl | ⟨hexpired, -, huntil⟩
    · exact ⟨claim', hafter, hactive, hreviewer⟩
    · have hstill := ReviewAssignment.isActiveAt_antitone (huntil.trans hfinish) hactive
      rw [hexpired] at hstill
      cases hstill

section Walk

variable {i : ℕ} {d : ReviewDesk} {γ : Type} {post : ReviewDesk → γ → Prop}
  {deeds : List ReviewDeed}

/-- A call that is no deed leaves the requests alone. -/
theorem safe_askDesk {q : ReviewCall} (hq : ∀ d : ReviewDesk, d.deeds q = [])
    (hknows : leases.deedsOf i d = deeds) {f : q.Answer → ReviewProgram γ}
    (h : ∀ d' d'' ω answer, d.Later d' → leases.deedsOf i d'' = deeds → d'.Later d'' →
      ReviewDesk.serve i d' q ω = some (answer, d'') →
        Safe leases.contract ReviewDesk.serve ReviewDesk.NonDecreasing i post (f answer) d'') :
    Safe leases.contract ReviewDesk.serve ReviewDesk.NonDecreasing i post (.call q f) d := by
  refine leases.safe_call isJournal_serve_desk keptBy_leases hknows (fun d' _ _ _ => ?_) ?_
  · cases q with
    | save request found => cases hq d'
    | _ => trivial
  · intro d' ω answer d'' horder _ hknows' _ hserve _ horder'
    refine h d' d'' ω answer horder ?_ horder' hserve
    obtain ⟨answered, -, hanswered⟩ := Option.map_eq_some_iff.mp hserve
    cases hanswered
    rw [← hknows']
    exact leases.deedsOf_of_same (by
      change (d'.deeds q).map (Prod.mk i) ++ d'.journal = d'.journal
      rw [hq d']
      rfl)

/-- Nothing is said of an error. -/
theorem safe_error_desk {command : ReviewerCommand} (error : VerificationError)
    (hknows : leases.deedsOf i d = deeds) :
    Safe leases.contract ReviewDesk.serve ReviewDesk.NonDecreasing i
      (HasDecidedInReview i command) (.ret (.error error)) d :=
  leases.safe_ret hknows (by rintro _ _ _ _ _ ⟨⟩)

/-- Deciding a request that was found earlier, at a time at which its claim is looked at. -/
theorem safe_decideFound_desk {action : ReviewerAction} (haction : DecidesClaimed action)
    (command : ReviewerCommand) {found decided : ReviewDesk} {request : VerificationRequest}
    {now : ℤ} (hstored : found.review.requests.get? command.requestId = some request)
    (hlater : found.Later decided) (hknows : leases.deedsOf i decided = []) :
    Safe leases.contract ReviewDesk.serve ReviewDesk.NonDecreasing i
      (HasDecidedInReview i command)
      (match action request command.reviewerId (Encoding.trim command.note) now with
        | .error error => return .error error
        | .ok updated => do
          saveRequest updated request.status
          return .ok updated) decided := by
  cases hupdated : action request command.reviewerId (Encoding.trim command.note) now with
  | error error => exact safe_error_desk _ hknows
  | ok updated =>
    obtain ⟨hsame, hnow, hassignment, hstatus, hheld⟩ := haction.accepted hupdated
    refine leases.safe_call (q := .save updated request.status) isJournal_serve_desk
      keptBy_leases hknows (fun _ _ _ _ => ⟨hassignment, hstatus⟩) ?_
    intro before ω answer after horder _ hknows' hallowed hserve _ _
    obtain ⟨answered, hanswered, hafter⟩ := Option.map_eq_some_iff.mp hserve
    cases ω <;> cases hanswered
    cases hafter
    obtain ⟨replaced, hreplaced, hmoves⟩ :=
      (hlater.trans horder).request command.requestId request hstored
    refine leases.safe_ret rfl fun last _ _ hlast updated' hok => ?_
    cases hok
    refine ⟨replaced, (JournalLaw.mem_deedsOf (J := leases)).mp ?_,
      KeyedMap.key_of_get? hreplaced, ?_⟩
    · rw [hlast]
      refine (JournalLaw.mem_deedsOf (J := leases)).mpr (List.mem_cons.mpr (.inl ?_))
      rw [hsame, KeyedMap.key_of_get? hstored, hreplaced]
    · have hlatest : before.latest ≤ updated.updatedAt := hallowed _ rfl
      rw [hnow] at hlatest ⊢
      exact hmoves.hasActiveClaimOf hlatest hheld

/-- A decision that succeeds has replaced a request on which its reviewer held an active claim, if
this was still in review. -/
theorem safe_actOnRequest_desk {noteRequired : String} {action : ReviewerAction}
    (haction : DecidesClaimed action) (command : ReviewerCommand)
    (hidle : leases.deedsOf i d = []) :
    Safe leases.contract ReviewDesk.serve ReviewDesk.NonDecreasing i
      (HasDecidedInReview i command) (actOnRequest noteRequired action command) d := by
  unfold actOnRequest
  split
  · exact safe_error_desk _ hidle
  refine safe_askDesk (q := .findById command.requestId) (fun _ => rfl) hidle ?_
  intro found asked ω answer _ hknows hfound hserve
  obtain ⟨answered, hanswered, hsame⟩ := Option.map_eq_some_iff.mp hserve
  cases ω <;> cases hanswered
  cases hsame
  cases hstored : found.review.requests.get? command.requestId with
  | none => exact safe_error_desk _ hknows
  | some request =>
    -- the clock may be read in between
    cases hcommand : command.now with
    | some now => exact safe_decideFound_desk haction command hstored hfound hknows
    | none =>
      refine safe_askDesk (q := .now) (fun _ => rfl) hknows ?_
      intro read decided ω now hread hknows' hdecided _
      exact safe_decideFound_desk haction command hstored ((hfound.trans hread).trans hdecided)
        hknows'

/-- Every command keeps the law of the desk. -/
theorem safe_program_desk (c : DeskCommand) (hidle : leases.deedsOf i d = []) :
    Safe leases.contract ReviewDesk.serve ReviewDesk.NonDecreasing i (AtDesk i c d) c.program
      d := by
  cases c with
  | claimNextInReview params =>
    refine leases.safe_call (q := .claimNextInReview params) isJournal_serve_desk keptBy_leases
      hidle (fun _ _ _ _ => trivial) ?_
    intro before ω answer after _ _ _ _ _ _ _
    exact leases.safe_ret rfl fun _ _ _ _ => trivial
  | decide decision command =>
    cases decision with
    | approve => exact safe_actOnRequest_desk (decidesClaimed_decide (by decide)) command hidle
    | reject => exact safe_actOnRequest_desk (decidesClaimed_decide (by decide)) command hidle
    | requestMoreInformation =>
      exact safe_actOnRequest_desk decidesClaimed_requestMoreInformation command hidle

end Walk

/-! ## Runs -/

section Runs

variable {s : ReviewStore} {now : ℤ} {P P' : DeskPool}

/-- The desk in the beginning. -/
def ReviewDesk.fresh (s : ReviewStore) (now : ℤ) : ReviewDesk := ⟨s, now, []⟩

/-- When instants do not go back, all is well but for decisions on requests that have left the
review. -/
theorem sound_of_run_desk (hheld : (ReviewDesk.fresh s now).LeasesHeld)
    (hrun : RunWhile DeskPool.step (fun P e => P.Allows ReviewDesk.NonDecreasing e)
      (Pool.initial (ReviewDesk.fresh s now)) P) :
    Sound leases.contract ReviewDesk.serve ReviewDesk.NonDecreasing
      (fun i d => leases.deedsOf i d = []) AtDesk P :=
  leases.sound_of_run (fun _ c _ _ hidle => safe_program_desk c hidle) hheld rfl hrun

/-- In runs whose instants do not go back, desks follow one another. -/
theorem later_of_run (hheld : (ReviewDesk.fresh s now).LeasesHeld)
    (hrun : RunWhile DeskPool.step (fun P e => P.Allows ReviewDesk.NonDecreasing e)
      (Pool.initial (ReviewDesk.fresh s now)) P)
    (hlater : RunWhile DeskPool.step (fun P e => P.Allows ReviewDesk.NonDecreasing e) P P') :
    P.store.Later P'.store :=
  (Sound.relates_of_run (K := leases.contract) ReviewDesk.Later.refl
    (fun _ _ _ => ReviewDesk.Later.trans) (fun _ _ _ hrely => hrely.2)
    (fun _ _ _ hst hidle => hst.1.trans hidle)
    (fun _ c _ _ hidle => safe_program_desk c hidle) (sound_of_run_desk hheld hrun) hlater).1

/-- Every request that was replaced by a save was in review. -/
def ReviewDesk.ReplacedInReview (d : ReviewDesk) : Prop :=
  ∀ i updated replaced, (i, ReviewDeed.saved updated (some replaced)) ∈ d.journal →
    replaced.status = .inReview

theorem replacedInReview_of_run
    (hrun : RunWhile DeskPool.step (fun P e => P.Allows ReviewDesk.NonDecreasingInReview e)
      (Pool.initial (ReviewDesk.fresh s now)) P) : P.store.ReplacedInReview := by
  refine hrun.invariant (I := fun P => P.store.ReplacedInReview) (by rintro _ _ _ ⟨⟩) ?_
  intro P e P' hP hallowed hstep
  rcases Pool.step_cases hstep with ⟨i, c, rfl, -, rfl⟩ |
    ⟨i, ω, c, begun, q, k, r, d, rfl, hthread, hserve, rfl⟩
  · exact hP
  · obtain ⟨answered, -, hanswered⟩ := Option.map_eq_some_iff.mp hserve
    cases hanswered
    have hsaves : P.store.savesInReview q = true := by
      simp only [Pool.Allows, hthread] at hallowed
      exact hallowed.2
    intro j updated replaced hmem
    rcases List.mem_append.mp hmem with hnew | hold
    · obtain ⟨deed, hdeed, heq⟩ := List.mem_map.mp hnew
      cases heq
      cases q with
      | save request found =>
        obtain ⟨-, hreplaced⟩ := ReviewDeed.saved.inj (List.mem_singleton.mp hdeed)
        simpa [ReviewDesk.savesInReview, ← hreplaced] using hsaves
      | claimNextInReview params => cases List.mem_singleton.mp hdeed
      | _ => cases hdeed
    · exact hP j updated replaced hold

/-- If no reviewer holds two claims in the beginning and instants do not go back, then the leases
are exclusive in every run in which a decision is saved only over a request that is still in
review. -/
theorem leases_exclusive (hheld : ∀ reviewerId, (ReviewDesk.fresh s now).HoldsOne reviewerId)
    (hrun : RunWhile DeskPool.step (fun P e => P.Allows ReviewDesk.NonDecreasingInReview e)
      (Pool.initial (ReviewDesk.fresh s now)) P)
    (hlater : RunWhile DeskPool.step
      (fun P e => P.Allows ReviewDesk.NonDecreasingInReview e) P P') :
    LeasesExclusive P P' := by
  have hheld : (ReviewDesk.fresh s now).LeasesHeld := fun reviewerId _ => hheld reviewerId
  have hweaken : ∀ {P P' : DeskPool},
      RunWhile DeskPool.step (fun P e => P.Allows ReviewDesk.NonDecreasingInReview e) P P' →
        RunWhile DeskPool.step (fun P e => P.Allows ReviewDesk.NonDecreasing e) P P' :=
    fun hrun => hrun.mono fun _ _ => Pool.Allows.imp fun _ _ _ _ hallowed => hallowed.1
  have hsound := sound_of_run_desk hheld (hweaken (hrun.trans hlater))
  have horder := later_of_run hheld (hweaken hrun) (hweaken hlater)
  refine ⟨?_, hsound.inv, claimsOldest _, ?_⟩
  · intro id request request' claim claim' hrequest hclaim hrequest' hclaim' hne
    obtain ⟨after, hafter, hmoves⟩ := horder.request id request hrequest
    obtain rfl := Option.some.inj (hafter.symm.trans hrequest')
    exact ((hmoves.replaced claim claim' hclaim hclaim').resolve_left hne).1
  · intro i decision command updated hreturned
    obtain ⟨begun, hthread⟩ := Pool.threads_of_returned hreturned
    have hdone : HasDecidedInReview i command P'.store (.ok updated) := hsound.done_of_ret hthread
    obtain ⟨replaced, hmem, hid, hholder⟩ := hdone updated rfl
    have hstatus := replacedInReview_of_run (hrun.trans hlater) i updated replaced hmem
    exact ⟨replaced, hmem, hid, hholder hstatus⟩

end Runs

/-! ## Two decisions on one request -/

/-- A request in review that nobody has claimed. -/
def sampleReviewed : VerificationRequest := { sampleRequest with status := .inReview }

/-- The desk with that request. -/
def sampleDesk : ReviewDesk :=
  .fresh (.fresh (KeyedMap.empty.put sampleReviewed)) 1767225630000

/-- Events at the desk. -/
abbrev DeskSchedule := List (PoolEvent DeskCommand ReviewInput)

/-- The reviewer claims the next case. -/
def deskClaiming : DeskSchedule :=
  [.start 0 (.claimNextInReview ⟨"reviewer", 1767225660000, DEFAULT_CLAIM_TTL_MS, true⟩),
    .answer 0 .served]

/-- Thread `i` decides the sample request, up to the save. -/
def deskDeciding (i : ℕ) (decision : ReviewerDecision) : DeskSchedule :=
  [.start i (.decide decision
      ⟨sampleRequest.id, "reviewer", "matches the selfie", some 1767225720000⟩),
    .answer i .served]

/-- No reviewer holds anything at the sample desk. -/
theorem holdsOne_sampleDesk (reviewerId : String) : sampleDesk.HoldsOne reviewerId := by
  intro now _ request hrequest request' hrequest' _ _
  have honly : ∀ {other : VerificationRequest}, other ∈ sampleDesk.review.requests.values →
      other = sampleReviewed := by
    intro other hother
    exact List.mem_singleton.mp hother
  rw [honly hrequest, honly hrequest']

/-- The reviewer has approved and rejected the request that he has claimed. -/
def sampleDecidedTwice : DeskPool :=
  (execWhile DeskPool.step (fun P e => P.Allows ReviewDesk.NonDecreasing e)
    (Pool.initial sampleDesk) (deskClaiming ++ deskDeciding 1 .approve ++
      deskDeciding 2 .reject ++ [.answer 1 .served, .answer 2 .served])).get (by decide +kernel)

/-- The second decision on a request succeeds although nobody holds a claim any more. -/
theorem decided_without_claim :
    (∀ reviewerId, sampleDesk.HoldsOne reviewerId) ∧
      RunWhile DeskPool.step (fun P e => P.Allows ReviewDesk.NonDecreasing e)
        (Pool.initial sampleDesk) sampleDecidedTwice ∧
      ¬LeasesExclusive sampleDecidedTwice sampleDecidedTwice := by
  refine ⟨holdsOne_sampleDesk, runWhile_get _, fun hexclusive => ?_⟩
  have hholder := hexclusive.decidedByHolder 2 .reject
    ⟨sampleRequest.id, "reviewer", "matches the selfie", some 1767225720000⟩
    { sampleReviewed with
      status := .rejected,
      decision := some ⟨"reviewer", 1767225720000, "matches the selfie"⟩,
      updatedAt := 1767225720000,
      domainEvents := [⟨sampleRequest.id, sampleRequest.subjectUserId,
        sampleRequest.organizationId, sampleRequest.type, .rejected, "reviewer", 1767225720000,
        "matches the selfie"⟩] } (by decide +kernel)
  obtain ⟨replaced, hmem, -, claim, hclaim, -, -⟩ := hholder
  have hnone : ∀ entry ∈ sampleDecidedTwice.store.journal, entry.1 = 2 →
      entry.2.replacesClaimed = false := by decide +kernel
  simpa [ReviewDeed.replacesClaimed, hclaim] using hnone _ hmem rfl

/-- The reviewer has approved the request that he has claimed, and nothing else was done. -/
def sampleDecidedOnce : DeskPool :=
  (execWhile DeskPool.step (fun P e => P.Allows ReviewDesk.NonDecreasingInReview e)
    (Pool.initial sampleDesk) (deskClaiming ++ deskDeciding 1 .approve ++
      [.answer 1 .served])).get (by decide +kernel)

/-- One decision is one of the holder. -/
theorem leases_exclusive_sample :
    LeasesExclusive sampleDecidedOnce sampleDecidedOnce ∧
      ((sampleDecidedOnce.store.review.requests.get? sampleRequest.id).map fun request =>
        request.status) = some .approved :=
  ⟨leases_exclusive holdsOne_sampleDesk (runWhile_get _) .refl, by decide +kernel⟩

end Verixa.Verification
