import Verixa.Concurrency.Journal
import Verixa.Verification.ReviewUseCases

/-!
# A decided request is final

A use case saves the request that it has found some calls before, so that a late save can undo a
decision that was made in between (`decision_overwritten`).  In runs in which every save finds the
stored request in the status in which its use case has found it (`FindsStatus`), decided requests
never change, and at most one approval or rejection of a request succeeds (`decisions_final`).
-/

namespace Verixa.Verification

open Concurrency

/-- The stored request still has the status in which the use case that saves has found it. -/
def findsStatus (s : ReviewStore) : ReviewCall → Bool
  | .save request found => (s.requests.get? request.id).all fun stored => stored.status = found
  | _ => true

/-- `findsStatus`, as a condition on the calls of a run. -/
def FindsStatus (_ : ℕ) (s : ReviewStore) (q : ReviewCall) (_ : ReviewInput) : Prop :=
  findsStatus s q = true

instance (i : ℕ) (s : ReviewStore) (q : ReviewCall) (ω : ReviewInput) :
    Decidable (FindsStatus i s q ω) :=
  inferInstanceAs (Decidable (_ = true))

/-- The request that a use case has decided, if it has returned the decided request. -/
def ReviewCommand.decides : (command : ReviewCommand) → command.Result → Option String
  | .approveVerification command, .ok _ => some command.requestId
  | .rejectVerification command, .ok _ => some command.requestId
  | _, _ => none

/-- Decided requests stay as they are. -/
def DecidedStay (s t : ReviewStore) : Prop :=
  ∀ id request, s.requests.get? id = some request → request.isTerminal = true →
    t.requests.get? id = some request

/-- What is decided in one state of a run is the same in a later one, and of all approvals and
rejections of a request at most one has returned it. -/
structure DecisionsFinal (P P' : ReviewPool) : Prop where
  final : DecidedStay P.store P'.store
  once : ∀ i j command command' result result' id,
    P'.returned i = some ⟨command, result⟩ → P'.returned j = some ⟨command', result'⟩ →
    command.decides result = some id → command'.decides result' = some id → i = j

/-! ## The law of decisions -/

theorem DecidedStay.refl (s : ReviewStore) : DecidedStay s s := fun _ _ h _ => h

theorem DecidedStay.trans {s t u : ReviewStore} (hst : DecidedStay s t) (htu : DecidedStay t u) :
    DecidedStay s u :=
  fun id request h hterminal => htu id request (hst id request h hterminal) hterminal

/-- A decided request that was saved is stored, and was saved by one thread. -/
structure DecidedOnce (s : ReviewStore) : Prop where
  stored : ∀ i request, (i, request) ∈ s.journal → request.isTerminal = true →
    s.requests.get? request.id = some request
  unique : ∀ i j request request', (i, request) ∈ s.journal → (j, request') ∈ s.journal →
    request.isTerminal = true → request'.isTerminal = true → request.id = request'.id → i = j

/-- The law of decisions. -/
def decisions : JournalLaw ReviewStore VerificationRequest where
  journal := ReviewStore.journal
  inv := DecidedOnce
  order := DecidedStay
  order_refl := DecidedStay.refl
  order_trans _ _ _ := DecidedStay.trans

/-- What a use case promises of a call: what it saves was found undecided. -/
def Justified (_ : ℕ) (_ : ReviewStore) : ReviewCall → Prop
  | .save _ found => found.isTerminal = false
  | _ => True

variable {i : ℕ} {s t : ReviewStore}

/-- A request that is saved over an undecided one leaves the decided ones alone. -/
theorem decidedStay_put {request : VerificationRequest} {journal : List (ℕ × VerificationRequest)}
    (h : ∀ stored, s.requests.get? request.id = some stored → stored.isTerminal = false) :
    DecidedStay s ⟨s.requests.put request, journal⟩ := by
  intro id decided hdecided hterminal
  change (s.requests.put request).get? id = some decided
  rw [KeyedMap.get?_put]
  split
  · rename_i hid
    have hundecided := h decided (hid ▸ hdecided)
    rw [hterminal] at hundecided
    cases hundecided
  · exact hdecided

/-- What a justified save finds is undecided. -/
theorem undecided_of_findsStatus {request : VerificationRequest} {found : VerificationStatus}
    (hjust : Justified i s (.save request found))
    (hfinds : findsStatus s (.save request found) = true) {stored : VerificationRequest}
    (hstored : s.requests.get? request.id = some stored) : stored.isTerminal = false := by
  have hstatus : stored.status = found := by simpa [findsStatus, hstored] using hfinds
  rw [VerificationRequest.isTerminal, hstatus]
  exact hjust

/-- The claim of the next case changes a request in review, or nothing. -/
theorem decidedStay_claimNextInReview (s : ReviewStore) (params : ClaimNextInReviewParams) :
    DecidedStay s (s.claimNextInReview params).2 ∧
      (s.claimNextInReview params).2.journal = s.journal := by
  unfold ReviewStore.claimNextInReview
  split
  · exact ⟨.refl s, rfl⟩
  · split
    · exact ⟨.refl s, rfl⟩
    · rename_i candidate hcandidate
      split
      · exact ⟨.refl s, rfl⟩
      · rename_i claimed hclaimed
        have hmoved := VerificationRequest.claimBy_ok hclaimed
        have hmem : candidate ∈ s.requests.values := by
          have hsorted := List.mem_of_head? hcandidate
          rw [List.mem_insertionSort] at hsorted
          exact List.mem_of_mem_filter hsorted
        refine ⟨decidedStay_put fun stored hstored => ?_, rfl⟩
        rw [hmoved.id, KeyedMap.mem_values_iff.mp hmem, Option.some.injEq] at hstored
        exact hstored ▸ hmoved.undecided

/-- While decided requests stay and no deeds are added, the law holds. -/
theorem DecidedOnce.of_stay (h : DecidedOnce s) (hstay : DecidedStay s t)
    (hjournal : t.journal = s.journal) : DecidedOnce t := by
  constructor
  · intro j request hj hterminal
    rw [hjournal] at hj
    exact hstay _ _ (h.stored j request hj hterminal) hterminal
  · rw [hjournal]
    exact h.unique

/-- A save over an undecided request keeps the law. -/
theorem DecidedOnce.save (h : DecidedOnce s) {request : VerificationRequest}
    (hundecided : ∀ stored, s.requests.get? request.id = some stored →
      stored.isTerminal = false) :
    DecidedOnce ⟨s.requests.put request, (i, request) :: s.journal⟩ := by
  have hstay : DecidedStay s ⟨s.requests.put request, (i, request) :: s.journal⟩ :=
    decidedStay_put hundecided
  -- so far nobody has decided the request
  have hfirst : ∀ j request', (j, request') ∈ s.journal → request'.isTerminal = true →
      request'.id ≠ request.id := by
    intro j request' hj hterminal hid
    have hstored := h.stored j request' hj hterminal
    rw [hid] at hstored
    rw [hundecided request' hstored] at hterminal
    cases hterminal
  constructor
  · intro j request' hj hterminal
    rcases List.mem_cons.mp hj with heq | hj
    · cases heq
      exact KeyedMap.get?_put_self _ _
    · exact hstay _ _ (h.stored j request' hj hterminal) hterminal
  · intro j k request' request'' hj hk hterminal hterminal' hid
    rcases List.mem_cons.mp hj with heq | hj <;> rcases List.mem_cons.mp hk with heq' | hk
    · cases heq
      cases heq'
      rfl
    · cases heq
      exact absurd hid.symm (hfirst k request'' hk hterminal')
    · cases heq'
      exact absurd hid (hfirst j request' hj hterminal)
    · exact h.unique j k request' request'' hj hk hterminal hterminal' hid

/-- The call saves a request. -/
def isSave : ReviewCall → Bool
  | .save _ _ => true
  | _ => false

/-- The store after a call that does not save. -/
theorem stay_of_serve {q : ReviewCall} (hq : isSave q = false) {ω : ReviewInput} {r : q.Answer}
    (hserve : ReviewStore.serve i s q ω = some (r, t)) :
    DecidedStay s t ∧ t.journal = s.journal := by
  cases q with
  | save request found => cases hq
  | claimNextInReview params =>
    cases ω with
    | served =>
      obtain rfl : (s.claimNextInReview params).2 = t := congrArg Prod.snd (Option.some.inj hserve)
      exact decidedStay_claimNextInReview s params
    | _ => cases hserve
  | _ =>
    cases ω <;> cases hserve
    exact ⟨.refl s, rfl⟩

theorem isJournal_serve : decisions.IsJournal ReviewStore.serve := by
  intro i s q ω r t hserve
  cases q with
  | save request found =>
    cases ω <;> cases hserve
    exact ⟨[request], rfl⟩
  | _ => exact ⟨[], (stay_of_serve rfl hserve).2⟩

/-- Justified calls that find requests in the status in which they were found keep the law. -/
theorem keptBy_decisions : decisions.KeptBy ReviewStore.serve FindsStatus Justified := by
  intro i s q ω r t hinv hjust hfinds hserve
  cases q with
  | save request found =>
    cases ω <;> cases hserve
    have hundecided : ∀ stored, s.requests.get? request.id = some stored →
        stored.isTerminal = false :=
      fun stored hstored => undecided_of_findsStatus hjust hfinds hstored
    exact ⟨DecidedOnce.save hinv hundecided, decidedStay_put hundecided⟩
  | _ =>
    obtain ⟨hstay, hjournal⟩ := stay_of_serve rfl hserve
    exact ⟨DecidedOnce.of_stay hinv hstay hjournal, hstay⟩

/-! ## The walk through the use cases -/

/-- The thread has saved a request as decided. -/
def HasDecided (i : ℕ) (id : String) (t : ReviewStore) : Prop :=
  ∃ request, (i, request) ∈ t.journal ∧ request.isTerminal = true ∧ request.id = id

/-- A use case that returns a decided request has saved it. -/
def Decided (i : ℕ) (command : ReviewCommand) (_ t : ReviewStore) (result : command.Result) :
    Prop :=
  ∀ id, command.decides result = some id → HasDecided i id t

section Rules

variable {γ : Type} {post : ReviewStore → γ → Prop} {deeds : List VerificationRequest}

/-- A call that is no save. -/
theorem safe_ask {q : ReviewCall} (hq : isSave q = false) (hknows : decisions.deedsOf i s = deeds)
    {f : q.Answer → ReviewProgram γ} (h : ∀ t answer, decisions.deedsOf i t = deeds →
      Safe decisions.contract ReviewStore.serve FindsStatus i post (f answer) t) :
    Safe decisions.contract ReviewStore.serve FindsStatus i post (.call q f) s := by
  refine decisions.safe_call isJournal_serve keptBy_decisions hknows (fun _ _ _ _ => ?_) ?_
  · cases q with
    | save request found => cases hq
    | _ => trivial
  · intro t ω answer u _ _ hknows_t _ hserve _ _
    refine h u answer ?_
    rw [← hknows_t]
    exact decisions.deedsOf_of_same (stay_of_serve hq hserve).2

/-- Looking a request up. -/
theorem safe_findRequestById {id : String} (hknows : decisions.deedsOf i s = deeds)
    {f : Option VerificationRequest → ReviewProgram γ}
    (hnone : ∀ t, decisions.deedsOf i t = deeds →
      Safe decisions.contract ReviewStore.serve FindsStatus i post (f none) t)
    (hsome : ∀ t request, request.id = id → decisions.deedsOf i t = deeds →
      Safe decisions.contract ReviewStore.serve FindsStatus i post (f (some request)) t) :
    Safe decisions.contract ReviewStore.serve FindsStatus i post (findRequestById id >>= f) s := by
  refine decisions.safe_call (q := .findById id) isJournal_serve keptBy_decisions hknows
    (fun _ _ _ _ => trivial) ?_
  intro t ω answer u _ _ hknows_t _ hserve _ _
  cases ω <;> cases hserve
  cases hfound : t.requests.get? id with
  | none => exact hnone t hknows_t
  | some request => exact hsome t request (KeyedMap.key_of_get? hfound) hknows_t

/-- Saving a request that was found undecided. -/
theorem safe_saveRequest {request : VerificationRequest} {found : VerificationStatus}
    (hknows : decisions.deedsOf i s = deeds) (hfound : found.isTerminal = false)
    {f : Unit → ReviewProgram γ}
    (h : ∀ t, decisions.deedsOf i t = request :: deeds →
      Safe decisions.contract ReviewStore.serve FindsStatus i post (f ()) t) :
    Safe decisions.contract ReviewStore.serve FindsStatus i post
      (saveRequest request found >>= f) s := by
  refine decisions.safe_call (q := .save request found) isJournal_serve keptBy_decisions hknows
    (fun _ _ _ _ => hfound) ?_
  intro t ω answer u _ _ hknows_t _ hserve _ _
  cases ω <;> cases hserve
  exact h _ (JournalLaw.deedsOf_of_deed rfl hknows_t)

/-- Knowing the time. -/
theorem safe_readNow {now : Option ℤ} (hknows : decisions.deedsOf i s = deeds)
    {f : ℤ → ReviewProgram γ}
    (h : ∀ t now, decisions.deedsOf i t = deeds →
      Safe decisions.contract ReviewStore.serve FindsStatus i post (f now) t) :
    Safe decisions.contract ReviewStore.serve FindsStatus i post (readNow now >>= f) s := by
  cases now with
  | some now => exact h s now hknows
  | none => exact safe_ask (q := .now) rfl hknows fun t now => h t now

/-- Checking one piece of evidence is no deed. -/
theorem safe_check {evidence : Evidence} (hknows : decisions.deedsOf i s = deeds) :
    Safe decisions.contract ReviewStore.serve FindsStatus i
      (fun t _ => decisions.deedsOf i t = deeds) (RunAutomatedCheck.check evidence) s := by
  unfold RunAutomatedCheck.check
  split
  · refine safe_ask (q := .checkLiveness evidence) rfl hknows fun t answer hknows_t => ?_
    cases answer <;> exact decisions.safe_ret hknows_t fun _ _ _ => id
  · refine safe_ask (q := .checkDocument evidence) rfl hknows fun t answer hknows_t => ?_
    cases answer <;> exact decisions.safe_ret hknows_t fun _ _ _ => id

/-- Neither is checking all of it. -/
theorem safe_checkAll {evidence : List Evidence} (hknows : decisions.deedsOf i s = deeds) :
    Safe decisions.contract ReviewStore.serve FindsStatus i
      (fun t _ => decisions.deedsOf i t = deeds) (RunAutomatedCheck.checkAll evidence) s := by
  induction evidence generalizing s with
  | nil => exact decisions.safe_ret hknows fun _ _ _ => id
  | cons item evidence ih =>
    refine (safe_check hknows).bind fun t result hknows_t => ?_
    refine (ih hknows_t).bind fun u results hknows_u => ?_
    exact decisions.safe_ret hknows_u fun _ _ _ => id

/-- A request that is moved into review is found undecided by the save. -/
theorem safe_startReview {request : VerificationRequest} {results : List EvidenceCheckOutcome} {now : ℤ}
    {post : ReviewStore → Except VerificationError RunAutomatedCheckResult → Prop}
    (hknows : decisions.deedsOf i s = deeds)
    (hreturn : ∀ {t deeds} result, decisions.deedsOf i t = deeds →
      Safe decisions.contract ReviewStore.serve FindsStatus i post (.ret result) t) :
    Safe decisions.contract ReviewStore.serve FindsStatus i post
      (match request.startReview now with
        | .error error => return .error error
        | .ok reviewed => do
          saveRequest reviewed request.status
          return .ok ⟨reviewed, results⟩) s := by
  cases hreviewed : request.startReview now with
  | error error => exact hreturn _ hknows
  | ok reviewed =>
    refine safe_saveRequest hknows (VerificationRequest.startReview_ok hreviewed).undecided
      fun t hknows_t => ?_
    exact hreturn _ hknows_t

end Rules

/-- The automated check saves what it has found undecided. -/
theorem safe_runAutomatedCheck {command : RunAutomatedCheckCommand} {begun : ReviewStore}
    (hidle : decisions.deedsOf i begun = []) :
    Safe decisions.contract ReviewStore.serve FindsStatus i
      (Decided i (.runAutomatedCheck command) begun) (RunAutomatedCheck.execute command) begun := by
  -- it has nothing to answer for
  have hreturn : ∀ {t deeds} result, decisions.deedsOf i t = deeds →
      Safe decisions.contract ReviewStore.serve FindsStatus i
        (Decided i (.runAutomatedCheck command) begun) (.ret result) t :=
    fun result hknows => decisions.safe_ret hknows (by rintro _ _ _ _ _ ⟨⟩)
  refine safe_findRequestById hidle (fun t hknows_t => hreturn _ hknows_t) ?_
  intro t request _ hknows_t
  change Safe _ _ _ i _ (RunAutomatedCheck.review request command.evidence) t
  unfold RunAutomatedCheck.review
  split
  · exact hreturn _ hknows_t
  refine (safe_checkAll hknows_t).bind fun u results hknows_u => ?_
  refine safe_ask (q := .now) rfl hknows_u fun v now hknows_v => ?_
  exact safe_startReview hknows_v hreturn

/-- Claiming decides nothing. -/
theorem safe_claimNextReviewCase {policy : ClaimNextReviewCasePolicy}
    {command : ClaimNextReviewCaseCommand} {begun : ReviewStore}
    (hidle : decisions.deedsOf i begun = []) :
    Safe decisions.contract ReviewStore.serve FindsStatus i
      (Decided i (.claimNextReviewCase command) begun)
      (ClaimNextReviewCase.execute policy command) begun := by
  refine safe_readNow hidle fun t now hknows_t => ?_
  refine safe_ask (q := .claimNextInReview _) rfl hknows_t fun u outcome hknows_u => ?_
  exact decisions.safe_ret hknows_u (by rintro _ _ _ _ _ ⟨⟩)

/-- What a reviewer's action has done, if it is one that decides. -/
def Acted (i : ℕ) (deciding : Bool) (command : ReviewerCommand) (t : ReviewStore)
    (result : Except VerificationError VerificationRequest) : Prop :=
  deciding = true → result.isOk = true → HasDecided i command.requestId t

/-- A reviewer's action saves what it has found undecided; if it decides, the request that it
returns was saved by it. -/
theorem safe_actOnRequest (noteRequired : String) (action : ReviewerAction) (deciding : Bool)
    (command : ReviewerCommand)
    (haction : ∀ request next reviewerId note now, action request reviewerId note now = .ok next →
      VerificationRequest.MovedOn request next ∧ (deciding = true → next.isTerminal = true))
    (hidle : decisions.deedsOf i s = []) :
    Safe decisions.contract ReviewStore.serve FindsStatus i (Acted i deciding command)
      (actOnRequest noteRequired action command) s := by
  -- an error answers for nothing
  have herror : ∀ {t deeds} error, decisions.deedsOf i t = deeds →
      Safe decisions.contract ReviewStore.serve FindsStatus i (Acted i deciding command)
        (.ret (.error error)) t :=
    fun error hknows => decisions.safe_ret hknows (by rintro _ _ _ _ _ ⟨⟩)
  unfold actOnRequest
  split
  · exact herror _ hidle
  refine safe_findRequestById hidle (fun t hknows_t => herror _ hknows_t) ?_
  intro t request hid hknows_t
  refine safe_readNow hknows_t fun u now hknows_u => ?_
  cases hupdated : action request command.reviewerId (Encoding.trim command.note) now with
  | error error => exact herror _ hknows_u
  | ok updated =>
    obtain ⟨hmoved, hterminal⟩ := haction _ _ _ _ _ hupdated
    refine safe_saveRequest hknows_u hmoved.undecided fun v hknows_v => ?_
    refine decisions.safe_ret hknows_v fun w _ _ hknows_w hdeciding _ => ?_
    exact ⟨updated, JournalLaw.mem_deedsOf.mp (hknows_w ▸ List.mem_cons_self),
      hterminal hdeciding, hmoved.id.trans hid⟩

/-- What `decide` makes of a request is decided. -/
theorem decides_of_decide {outcome : VerificationStatus} (houtcome : outcome.isTerminal = true)
    (request next : VerificationRequest) (reviewerId note : String) (now : ℤ)
    (hok : request.decide outcome reviewerId note now = .ok next) :
    VerificationRequest.MovedOn request next ∧ (true = true → next.isTerminal = true) := by
  obtain ⟨hmoved, rfl⟩ := VerificationRequest.decide_ok hok
  exact ⟨hmoved, fun _ => houtcome⟩

/-- Every use case keeps the law, and answers for what it has decided. -/
theorem safe_program {policy : ClaimNextReviewCasePolicy} (command : ReviewCommand)
    (hidle : decisions.deedsOf i s = []) :
    Safe decisions.contract ReviewStore.serve FindsStatus i (Decided i command s)
      (command.program policy) s := by
  cases command with
  | runAutomatedCheck command => exact safe_runAutomatedCheck hidle
  | claimNextReviewCase command => exact safe_claimNextReviewCase hidle
  | approveVerification command =>
    refine (safe_actOnRequest _ _ true command (decides_of_decide rfl) hidle).imp
      fun t result hacted => ?_
    cases result with
    | error error => rintro id ⟨⟩
    | ok updated => exact fun id hdecides => Option.some.inj hdecides ▸ hacted rfl rfl
  | rejectVerification command =>
    refine (safe_actOnRequest _ _ true command (decides_of_decide rfl) hidle).imp
      fun t result hacted => ?_
    cases result with
    | error error => rintro id ⟨⟩
    | ok updated => exact fun id hdecides => Option.some.inj hdecides ▸ hacted rfl rfl
  | requestMoreInformation command =>
    have hacts : ∀ request next reviewerId note now,
        VerificationRequest.requestMoreInformation request reviewerId note now = .ok next →
          VerificationRequest.MovedOn request next ∧ (false = true → next.isTerminal = true) :=
      fun _ _ _ _ _ hok => ⟨VerificationRequest.requestMoreInformation_ok hok, nofun⟩
    have hsafe := safe_actOnRequest "A note describing the missing information is required."
      VerificationRequest.requestMoreInformation false command hacts hidle
    exact hsafe.imp (by rintro _ _ _ _ ⟨⟩)

/-! ## Runs -/

/-- A request whose evidence was submitted. -/
def sampleRequest : VerificationRequest where
  id := "5a8b4a3e-41b2-4f6e-8d7a-1c2d3e4f5a01"
  subjectUserId := "0a1f3c52-77c4-4f0a-9b2e-5d7f6f0c1b11"
  organizationId := "c6f1d2e3-9b8a-4c7d-8e6f-0a1b2c3d4e01"
  type := .liveness
  status := .submitted
  createdAt := 1767225600000
  updatedAt := 1767225600000

/-- The store of the sample request. -/
def sampleReviewStore : ReviewStore := .fresh (KeyedMap.empty.put sampleRequest)

/-- A check of the sample request, without evidence. -/
def sampleCheck : ReviewCommand := .runAutomatedCheck ⟨sampleRequest.id, []⟩

/-- A reviewer claims the next case. -/
def sampleClaim : ReviewCommand := .claimNextReviewCase ⟨"reviewer", some 1767225660000⟩

/-- The reviewer approves the sample request. -/
def sampleApproval : ReviewCommand :=
  .approveVerification ⟨sampleRequest.id, "reviewer", "matches the selfie", some 1767225720000⟩

/-- Events of the use cases. -/
abbrev ReviewSchedule := List (PoolEvent ReviewCommand ReviewInput)

/-- Thread `i` finds the sample request in order to check it. -/
def checkReading (i : ℕ) : ReviewSchedule := [.start i sampleCheck, .answer i .served]

/-- Thread `i` saves it as one in review. -/
def checkWriting (i : ℕ) : ReviewSchedule :=
  [.answer i (.time 1767225630000), .answer i .served]

/-- The sample request is claimed and approved. -/
def approving : ReviewSchedule :=
  [.start 2 sampleClaim, .answer 2 .served, .start 3 sampleApproval, .answer 3 .served,
    .answer 3 .served]

/-- The sample request was approved while another check of it is under way. -/
def sampleApproved : ReviewPool :=
  (exec (ReviewPool.step {}) (Pool.initial sampleReviewStore)
    (checkReading 0 ++ checkReading 1 ++ checkWriting 1 ++ approving)).get (by decide +kernel)

/-- The other check ends. -/
def sampleOverwritten : ReviewPool :=
  (exec (ReviewPool.step {}) sampleApproved (checkWriting 0)).get (by decide +kernel)

/-- A check that ends late puts an approved request back into review. -/
theorem decision_overwritten :
    ∃ P P', Run (ReviewPool.step {}) (Pool.initial sampleReviewStore) P ∧
      Run (ReviewPool.step {}) P P' ∧ ¬DecisionsFinal P P' := by
  refine ⟨sampleApproved, sampleOverwritten, runWhile_get _, runWhile_get _, fun hfinal => ?_⟩
  have hdecided : ((sampleApproved.store.requests.get? sampleRequest.id).any fun request =>
      request.isTerminal) = true := by decide +kernel
  have hreopened : ((sampleOverwritten.store.requests.get? sampleRequest.id).any fun request =>
      request.isTerminal) = false := by decide +kernel
  obtain ⟨request, hrequest, hterminal⟩ := (Option.any_eq_true _ _).mp hdecided
  rw [hfinal.final _ _ hrequest hterminal, Option.any_some, hterminal] at hreopened
  cases hreopened

/-- In runs in which every save finds the stored request in the status in which it was found, what
is decided stays as it is, and at most one approval or rejection of a request succeeds. -/
theorem decisions_final (policy : ClaimNextReviewCasePolicy) (hjournal : s.journal = [])
    {P P' : ReviewPool}
    (hrun : RunWhile (ReviewPool.step policy) (fun P e => P.Allows FindsStatus e)
      (Pool.initial s) P)
    (hlater : RunWhile (ReviewPool.step policy) (fun P e => P.Allows FindsStatus e) P P') :
    DecisionsFinal P P' := by
  have hinitial : DecidedOnce s := ⟨by simp [hjournal], by simp [hjournal]⟩
  have hsound : ∀ {Q : ReviewPool}, RunWhile (ReviewPool.step policy)
      (fun P e => P.Allows FindsStatus e) (Pool.initial s) Q →
      Sound decisions.contract ReviewStore.serve FindsStatus
        (fun i t => decisions.deedsOf i t = []) Decided Q := fun hrun =>
    decisions.sound_of_run (fun _ command _ _ hidle => safe_program command hidle) hinitial
      hjournal hrun
  have hstays : DecidedStay P.store P'.store ∧ _ :=
    Sound.relates_of_run (K := decisions.contract) DecidedStay.refl (fun _ _ _ => DecidedStay.trans)
      (fun _ _ _ hrely => hrely.2) (fun _ _ _ hst hidle => hst.1.trans hidle)
      (fun _ command _ _ hidle => safe_program command hidle) (hsound hrun) hlater
  refine ⟨hstays.1, ?_⟩
  have hsound' := hsound (hrun.trans hlater)
  have hinv : DecidedOnce P'.store := hsound'.inv
  intro i j command command' result result' id hi hj hdecides hdecides'
  obtain ⟨begun, hthread⟩ := Pool.threads_of_returned hi
  obtain ⟨begun', hthread'⟩ := Pool.threads_of_returned hj
  obtain ⟨request, hmem, hterminal, rfl⟩ := hsound'.done_of_ret hthread id hdecides
  obtain ⟨request', hmem', hterminal', hid⟩ := hsound'.done_of_ret hthread' _ hdecides'
  exact hinv.unique i j request request' hmem hmem' hterminal hterminal' hid.symm

/-- The sample request is checked, claimed and approved, and nothing else. -/
def sampleDecided : ReviewPool :=
  (execWhile (ReviewPool.step {}) (fun P e => P.Allows FindsStatus e)
    (Pool.initial sampleReviewStore) (checkReading 1 ++ checkWriting 1 ++ approving)).get
      (by decide +kernel)

/-- A second approval of the sample request is attempted. -/
def sampleReapproved : ReviewPool :=
  (execWhile (ReviewPool.step {}) (fun P e => P.Allows FindsStatus e) sampleDecided
    [.start 4 sampleApproval, .answer 4 .served]).get (by decide +kernel)

/-- It fails. -/
theorem decisions_final_sample :
    DecisionsFinal sampleDecided sampleReapproved ∧
      ((sampleReapproved.store.requests.get? sampleRequest.id).map fun request =>
        request.status) = some .approved :=
  ⟨decisions_final {} rfl (runWhile_get _) (runWhile_get _), by decide +kernel⟩

end Verixa.Verification
