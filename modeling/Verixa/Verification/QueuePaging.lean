import Verixa.Verification.ReviewQueue

/-!
# The pages of the review queue

Over the repository in memory the pages of the queue have every matching request once, oldest first.
Over the database they do so, however it orders requests of one time, exactly if no page ends
between two of them (`queue_paging_iff`).
-/

namespace Verixa.Verification

open OffsetPaging

/-! ## What the queue is to list -/

/-- The lease on the request is live. -/
def VerificationRequest.isClaimedAt (request : VerificationRequest) (now : ℤ) : Bool :=
  request.assignment.any fun claim => claim.isActiveAt now

/-- The filters of a query. -/
structure QueueFilter where
  status : Option VerificationStatus := none
  verificationType : Option VerificationType := none
  assignment : Option QueueAssignmentFilter := none

namespace QueueFilter

/-- The filter names no status but those of the queue. -/
def Valid (filter : QueueFilter) : Prop :=
  ∀ status ∈ filter.status, status ∈ ListReviewQueue.REVIEWABLE_STATUSES

/-- The queue is to list the request. -/
def Matches (filter : QueueFilter) (now : ℤ) (request : VerificationRequest) : Prop :=
  request.status ∈ ListReviewQueue.REVIEWABLE_STATUSES ∧
    (∀ status ∈ filter.status, request.status = status) ∧
    (∀ type ∈ filter.verificationType, request.type = type) ∧
    (filter.assignment = some .assigned → request.isClaimedAt now = true) ∧
    (filter.assignment = some .unassigned → request.isClaimedAt now = false)

instance (filter : QueueFilter) (now : ℤ) : DecidablePred (filter.Matches now) := fun request => by
  unfold Matches
  infer_instance

/-- The requests that the queue is to list. -/
def matching (filter : QueueFilter) (now : ℤ) (requests : List VerificationRequest) :
    List VerificationRequest :=
  requests.filter fun request => filter.Matches now request

/-- The query for the page at an offset. -/
def query (filter : QueueFilter) (limit : ℕ) (now : ℤ) (offset : ℕ) : ListReviewQueueQuery where
  status := filter.status
  verificationType := filter.verificationType
  assignment := filter.assignment
  limit := some (.finite limit)
  offset := some (.finite offset)
  now := some now

/-- What the repository is asked for then. -/
def options (filter : QueueFilter) (limit : ℕ) (now : ℤ) (offset : ℕ) : QueueCandidateOptions where
  statuses := some ((filter.status.map fun status => [status]).getD
    ListReviewQueue.REVIEWABLE_STATUSES)
  verificationType := filter.verificationType
  assignment := filter.assignment
  now := some now
  limit := some (limit + 1)
  offset := some offset

variable {filter : QueueFilter} {now : ℤ}

/-- The statuses that the repository is asked for. -/
theorem contains_statuses_iff (hvalid : filter.Valid) (status : VerificationStatus) :
    status ∈ (filter.status.map fun status => [status]).getD ListReviewQueue.REVIEWABLE_STATUSES ↔
      status ∈ ListReviewQueue.REVIEWABLE_STATUSES ∧ ∀ named ∈ filter.status, status = named := by
  unfold Valid at hvalid
  cases hstatus : filter.status with
  | none => simp
  | some named =>
    have hnamed := hvalid named hstatus
    simp only [Option.map_some, Option.getD_some, List.mem_singleton, Option.mem_some_iff,
      forall_eq']
    constructor
    · rintro rfl
      exact ⟨hnamed, rfl⟩
    · exact fun h => h.2

/-- The repository in memory lists the matching requests. -/
theorem isCandidate_eq (hvalid : filter.Valid) (limit offset : ℕ) (request : VerificationRequest) :
    InMemoryVerificationRequestRepository.isCandidate (filter.options limit now offset) now
      request = decide (filter.Matches now request) := by
  rw [Bool.eq_iff_iff, decide_eq_true_iff, Matches, ← and_assoc,
    ← contains_statuses_iff hvalid request.status]
  unfold InMemoryVerificationRequestRepository.isCandidate options matchesAssignment
  cases filter.verificationType <;> cases filter.assignment with
  | none => simp
  | some assignment =>
    cases assignment <;> simp [VerificationRequest.isClaimedAt, and_assoc]

end QueueFilter

/-! ## Reading the pages -/

namespace ListReviewQueue

theorem naturalOf_natCast (n : ℕ) : naturalOf (.finite n) = some n := by
  simp [naturalOf]

/-- What the use case answers for the page at an offset. -/
def pageAt (find : QueueCandidateOptions → Except ThrownError (List VerificationRequest))
    (clock : ℤ) (filter : QueueFilter) (limit : ℕ) (now : ℤ) (offset : ℕ) :
    Option (Page ReviewQueueItem) :=
  match execute find clock (filter.query limit now offset) with
  | .ok (.ok page) => some ⟨page.items, page.hasMore⟩
  | _ => none

variable {find : QueueCandidateOptions → Except ThrownError (List VerificationRequest)}
  {clock : ℤ} {filter : QueueFilter} {limit : ℕ} {now : ℤ} {offset : ℕ}

/-- A valid query shows the rows that the repository finds. -/
theorem pageAt_eq (hvalid : filter.Valid) (hlimit : 1 ≤ limit) (hmax : limit ≤ MAX_QUEUE_PAGE_SIZE)
    {rows : List VerificationRequest} (hrows : find (filter.options limit now offset) = .ok rows) :
    pageAt find clock filter limit now offset =
      some (pageOf limit (rows.map fun request => toQueueItem request now)) := by
  have hstatuses : resolveStatuses filter.status =
      some ((filter.status.map fun status => [status]).getD REVIEWABLE_STATUSES) := by
    unfold QueueFilter.Valid at hvalid
    cases hstatus : filter.status with
    | none => rfl
    | some named =>
      have hnamed := hvalid named hstatus
      rw [resolveStatuses, if_pos (List.contains_iff_mem.mpr hnamed)]
      rfl
  have hsize : resolveLimit (some (.finite limit)) = some limit := by
    rw [resolveLimit, naturalOf_natCast]
    exact Option.filter_some_pos (decide_eq_true ⟨hlimit, hmax⟩)
  have hplace : resolveOffset (some (.finite offset)) = some offset := naturalOf_natCast offset
  have hpage : execute find clock (filter.query limit now offset) = .ok (.ok
      { items := (if decide (limit < rows.length) = true then rows.take limit else rows).map
          fun request => toQueueItem request now
        limit, offset, hasMore := decide (limit < rows.length) }) := by
    unfold execute
    simp only [QueueFilter.query, hstatuses, hsize, hplace, Option.getD_some]
    rw [QueueFilter.options] at hrows
    rw [hrows]
  rw [pageAt, hpage, pageOf_map, pageOf]
  by_cases hmore : limit < rows.length <;> simp [hmore, Page.map]

end ListReviewQueue

/-! ## The rows of the database -/

namespace VerificationRequestMapper

/-- The type as the database spells it. -/
def dbTypeText : VerificationType → String
  | .identityDocument => "identity_document"
  | .address => "address"
  | .liveness => "liveness"

theorem toDbVerificationType_eq (type : VerificationType) :
    toDbVerificationType type = .ok (dbTypeText type) := by
  cases type <;> rfl

theorem dbTypeText_inj {a b : VerificationType} : dbTypeText a = dbTypeText b ↔ a = b := by
  cases a <;> cases b <;> simp [dbTypeText]

/-- The row of a request. -/
def rowOf (request : VerificationRequest) : VerificationRequestRow where
  id := request.id
  subjectUserId := request.subjectUserId
  organizationId := request.organizationId
  type := dbTypeText request.type
  status := request.status.text
  assignedReviewerId := request.assignment.map ReviewAssignment.reviewerId
  assignedAt := request.assignment.map ReviewAssignment.assignedAt
  claimExpiresAt := request.assignment.map ReviewAssignment.claimExpiresAt
  decidedByReviewerId := request.decision.map VerificationDecision.decidedBy
  decidedAt := request.decision.map VerificationDecision.decidedAt
  decision := decisionOf request.status
  decisionNote := request.decision.map VerificationDecision.note
  needsMoreInfoNote := request.needsMoreInfoNote
  createdAt := request.createdAt
  updatedAt := request.updatedAt

theorem toRow_eq (request : VerificationRequest) : toRow request = .ok (rowOf request) := by
  rw [toRow, toDbVerificationType_eq]
  rfl

/-- The row of a consistent request is read back as the request. -/
theorem toDomain_rowOf {request : VerificationRequest} (h : request.Consistent) :
    toDomain (rowOf request) = .ok { request with domainEvents := [] } := by
  have hread := toDomain_toRow h
  rwa [toRow_eq] at hread

end VerificationRequestMapper

/-- Requests as they are stored: with ids of their own, each consistent, and no claim until a date
that is no date. -/
structure StoredRequests (requests : List VerificationRequest) : Prop where
  distinct : (requests.map VerificationRequest.id).Nodup
  consistent : ∀ request ∈ requests, request.Consistent
  dated : ∀ request ∈ requests, ∀ claim, request.assignment = some claim →
    claim.claimExpiresAt.isSome = true

theorem VerificationStatus.text_inj {a b : VerificationStatus} : a.text = b.text ↔ a = b := by
  cases a <;> cases b <;> simp [text]

namespace PrismaVerificationRequestRepository

open VerificationRequestMapper

/-- The database selects the rows of the matching requests. -/
theorem isSelected_eq {filter : QueueFilter} {now : ℤ} (hvalid : filter.Valid) (limit offset : ℕ)
    {request : VerificationRequest}
    (hdated : ∀ claim, request.assignment = some claim → claim.claimExpiresAt.isSome = true) :
    isSelected (filter.options limit now offset) (filter.verificationType.map dbTypeText) now
      (rowOf request) = decide (filter.Matches now request) := by
  have hstatus : ∀ statuses : List VerificationStatus,
      (statuses.map VerificationStatus.text).contains request.status.text = true ↔
        request.status ∈ statuses := by
    intro statuses
    simp [VerificationStatus.text_inj]
  rw [Bool.eq_iff_iff, decide_eq_true_iff, QueueFilter.Matches, ← and_assoc,
    ← QueueFilter.contains_statuses_iff hvalid request.status]
  have htype : (filter.verificationType.map dbTypeText).all
      (fun type => decide ((rowOf request).type = type)) = true ↔
        ∀ type ∈ filter.verificationType, request.type = type := by
    cases filter.verificationType <;> simp [rowOf, dbTypeText_inj]
  have hassigned : ((rowOf request).assignedReviewerId.isSome &&
      columnHolds (rowOf request).claimExpiresAt fun time => now < time) = true ↔
        request.isClaimedAt now = true := by
    unfold VerificationRequest.isClaimedAt columnHolds rowOf
    cases hclaim : request.assignment with
    | none => simp
    | some claim =>
      obtain ⟨time, htime⟩ := Option.isSome_iff_exists.mp (hdated claim hclaim)
      simp [htime, ReviewAssignment.isActiveAt]
  have hunassigned : ((rowOf request).assignedReviewerId.isNone ||
      columnHolds (rowOf request).claimExpiresAt fun time => time ≤ now) = true ↔
        request.isClaimedAt now = false := by
    unfold VerificationRequest.isClaimedAt columnHolds rowOf
    cases hclaim : request.assignment with
    | none => simp
    | some claim =>
      obtain ⟨time, htime⟩ := Option.isSome_iff_exists.mp (hdated claim hclaim)
      simp [htime, ReviewAssignment.isActiveAt]
  unfold isSelected
  rw [Bool.and_eq_true, Bool.and_eq_true, htype, and_assoc]
  refine and_congr (by simpa [QueueFilter.options, rowOf] using hstatus _)
    (and_congr_right fun _ => ?_)
  cases hassignment : filter.assignment with
  | none => simp [QueueFilter.options, hassignment]
  | some assignment =>
    cases assignment with
    | any => simp [QueueFilter.options, hassignment]
    | assigned => simpa [QueueFilter.options, hassignment] using hassigned
    | unassigned => simpa [QueueFilter.options, hassignment] using hunassigned

/-- Where every row can be read, the rows are read one by one. -/
theorem mapM_eq_ok {α β ε : Type*} {f : α → Except ε β} {g : α → β} {items : List α}
    (h : ∀ item ∈ items, f item = .ok (g item)) : items.mapM f = .ok (items.map g) := by
  induction items with
  | nil => rfl
  | cons item items ih =>
    obtain ⟨hitem, hitems⟩ := List.forall_mem_cons.mp h
    rw [List.mapM_cons, hitem, ih hitems]
    rfl

end PrismaVerificationRequestRepository

/-! ## The two repositories -/

/-- A repository: the one in memory, or the one over a database, with the order in which the
database returns the rows it has selected for a call. -/
inductive QueueRepository where
  | inMemory
  | prisma (order : QueueCandidateOptions → List VerificationRequestRow →
      List VerificationRequestRow)

namespace QueueRepository

/-- `repository.findQueueCandidates(options)` over stored requests. -/
def findQueueCandidates (repository : QueueRepository) (requests : List VerificationRequest)
    (clock : ℤ) (options : QueueCandidateOptions) :
    Except ThrownError (List VerificationRequest) :=
  match repository with
  | .inMemory => .ok (InMemoryVerificationRequestRepository.findQueueCandidates requests clock
      options)
  | .prisma order => do
    let table ← requests.mapM VerificationRequestMapper.toRow
    PrismaVerificationRequestRepository.findQueueCandidates table clock (order options) options

end QueueRepository

/-- Rows come in the order of `created_at`, those of equal times in any order. -/
def OrdersByCreatedAt (order : QueueCandidateOptions → List VerificationRequestRow →
    List VerificationRequestRow) : Prop :=
  ∀ options rows, Arranges VerificationRequestRow.createdAt rows (order options rows)

/-- Each matching request is listed once, oldest first, and shows a claim if its lease is live. -/
structure QueueListed (filter : QueueFilter) (now : ℤ) (requests : List VerificationRequest)
    (items : List ReviewQueueItem) : Prop where
  once : items.Perm ((filter.matching now requests).map fun request =>
    ListReviewQueue.toQueueItem request now)
  oldestFirst : items.Pairwise fun a b => a.createdAt ≤ b.createdAt
  claims : ∀ item ∈ items, ∃ request ∈ filter.matching now requests,
    item = ListReviewQueue.toQueueItem request now ∧
      (item.claim.isSome = true ↔ request.isClaimedAt now = true)

/-- The pages at the offsets `0`, `limit`, `2 * limit`, and so on until nothing follows list the
queue. -/
def ListsQueue (repository : QueueRepository) (clock : ℤ) (filter : QueueFilter) (limit : ℕ)
    (now : ℤ) (requests : List VerificationRequest) : Prop :=
  ∃ pages, FollowsOffsets (ListReviewQueue.pageAt (repository.findQueueCandidates requests clock)
      clock filter limit now) limit 0 pages ∧
    QueueListed filter now requests (listed pages)

namespace ListReviewQueue

theorem isSome_claim_iff (request : VerificationRequest) (now : ℤ) :
    (toQueueItem request now).claim.isSome = true ↔ request.isClaimedAt now = true := by
  unfold toQueueItem VerificationRequest.isClaimedAt
  cases request.assignment with
  | none => simp
  | some claim => cases hactive : claim.isActiveAt now <;> simp [hactive]

end ListReviewQueue

/-- Complete pages of the matching requests list the queue. -/
theorem queueListed_of_complete {filter : QueueFilter} {now : ℤ}
    {requests : List VerificationRequest} {pages : List (Page VerificationRequest)}
    (h : Complete VerificationRequest.createdAt (filter.matching now requests) pages) :
    QueueListed filter now requests
      (listed (pages.map (Page.map fun request => ListReviewQueue.toQueueItem request now))) := by
  rw [listed_map]
  refine ⟨h.perm.map _, List.pairwise_map.mpr h.sorted, ?_⟩
  intro item hitem
  obtain ⟨request, hrequest, rfl⟩ := List.mem_map.mp hitem
  exact ⟨request, h.perm.subset hrequest, rfl, ListReviewQueue.isSome_claim_iff request now⟩

/-- Where requests have ids of their own, what lists the queue lists no request twice. -/
theorem nodup_of_queueListed {filter : QueueFilter} {now : ℤ} {requests : List VerificationRequest}
    (hdistinct : (requests.map VerificationRequest.id).Nodup)
    {pages : List (Page VerificationRequest)}
    (h : QueueListed filter now requests
      (listed (pages.map (Page.map fun request => ListReviewQueue.toQueueItem request now)))) :
    (listed pages).Nodup := by
  have honce := h.once
  rw [listed_map] at honce
  have hids : ((listed pages).map VerificationRequest.id).Perm
      ((filter.matching now requests).map VerificationRequest.id) := by
    have hmap := honce.map ReviewQueueItem.requestId
    rwa [List.map_map, List.map_map] at hmap
  have hmatching : ((filter.matching now requests).map VerificationRequest.id).Nodup :=
    hdistinct.sublist (List.filter_sublist.map _)
  exact List.Nodup.of_map _ (hids.nodup_iff.mpr hmatching)

/-! ## In memory -/

/-- The repository in memory cuts every page from one arrangement. -/
theorem listsQueue_inMemory {filter : QueueFilter} {limit : ℕ} (hvalid : filter.Valid)
    (hlimit : 1 ≤ limit) (hmax : limit ≤ ListReviewQueue.MAX_QUEUE_PAGE_SIZE) (clock now : ℤ)
    (requests : List VerificationRequest) :
    ListsQueue .inMemory clock filter limit now requests := by
  have hsorted := arranges_insertionSort VerificationRequest.createdAt
    (filter.matching now requests)
  have hpages : ListReviewQueue.pageAt (QueueRepository.inMemory.findQueueCandidates requests clock)
      clock filter limit now = fun offset => some ((readAt limit (fun _ =>
        (filter.matching now requests).insertionSort fun a b => a.createdAt ≤ b.createdAt)
          offset).map fun request => ListReviewQueue.toQueueItem request now) := by
    funext offset
    rw [readAt, ← pageOf_map]
    apply ListReviewQueue.pageAt_eq hvalid hlimit hmax
    have hcandidates : requests.filter (InMemoryVerificationRequestRepository.isCandidate
        (filter.options limit now offset) now) = filter.matching now requests :=
      List.filter_congr fun request _ => QueueFilter.isCandidate_eq hvalid limit offset request
    rw [rowsAt, ← hcandidates]
    rfl
  obtain ⟨pages, hfollows, hcomplete⟩ := exists_complete_of_fixed hlimit hsorted
  refine ⟨_, ?_, queueListed_of_complete hcomplete⟩
  rw [hpages]
  exact (followsOffsets_map_iff _).mpr ⟨pages, hfollows, rfl⟩

/-! ## Over the database -/

open VerificationRequestMapper

variable {filter : QueueFilter} {limit : ℕ} {clock now : ℤ} {requests : List VerificationRequest}
  {order : QueueCandidateOptions → List VerificationRequestRow → List VerificationRequestRow}

/-- The page at an offset shows what the database returns for the rows of the matching requests. -/
theorem pageAt_prisma (hstored : StoredRequests requests) (hvalid : filter.Valid)
    (hlimit : 1 ≤ limit) (hmax : limit ≤ ListReviewQueue.MAX_QUEUE_PAGE_SIZE) {offset : ℕ}
    {arranged : List VerificationRequest}
    (hperm : arranged.Perm (filter.matching now requests))
    (hrows : order (filter.options limit now offset)
      ((filter.matching now requests).map rowOf) = arranged.map rowOf) :
    ListReviewQueue.pageAt ((QueueRepository.prisma order).findQueueCandidates requests clock) clock
      filter limit now offset =
    some ((pageOf limit (rowsAt limit offset arranged)).map fun request =>
      ListReviewQueue.toQueueItem request now) := by
  have hsaved : requests.mapM toRow = .ok (requests.map rowOf) :=
    PrismaVerificationRequestRepository.mapM_eq_ok fun request _ => toRow_eq request
  have htype : filter.verificationType.mapM toDbVerificationType =
      .ok (filter.verificationType.map dbTypeText) := by
    cases filter.verificationType with
    | none => rfl
    | some type => simp [toDbVerificationType_eq]
  have hselected : (requests.map rowOf).filter (PrismaVerificationRequestRepository.isSelected
      (filter.options limit now offset) (filter.verificationType.map dbTypeText) now) =
        (filter.matching now requests).map rowOf := by
    rw [List.filter_map, QueueFilter.matching]
    congr 1
    exact List.filter_congr fun request hrequest =>
      PrismaVerificationRequestRepository.isSelected_eq hvalid limit offset
        (hstored.dated request hrequest)
  have hread : ((rowsAt limit offset arranged).map rowOf).mapM toDomain =
      .ok ((rowsAt limit offset arranged).map fun request =>
        { request with domainEvents := [] }) := by
    rw [List.mapM_map]
    apply PrismaVerificationRequestRepository.mapM_eq_ok
    intro request hrequest
    have hmem : request ∈ arranged :=
      ((List.take_sublist _ _).trans (List.drop_sublist _ _)).subset hrequest
    exact toDomain_rowOf (hstored.consistent request
      (List.mem_of_mem_filter (hperm.subset hmem)))
  have hfind : (QueueRepository.prisma order).findQueueCandidates requests clock
      (filter.options limit now offset) =
        .ok ((rowsAt limit offset arranged).map fun request =>
          { request with domainEvents := [] }) := by
    unfold QueueRepository.findQueueCandidates
    unfold PrismaVerificationRequestRepository.findQueueCandidates
    rw [hsaved, ← hread, rowsAt, List.map_take, List.map_drop, ← hrows, ← hselected]
    have htype' : (filter.options limit now offset).verificationType.mapM toDbVerificationType =
      .ok (filter.verificationType.map dbTypeText) := htype
    simp only [bind, Except.bind, htype']
    rfl
  rw [ListReviewQueue.pageAt_eq hvalid hlimit hmax hfind, List.map_map, ← pageOf_map]
  rfl

/-- A database that orders by the time of creation arranges the matching requests for every call. -/
theorem exists_arrangement (horder : OrdersByCreatedAt order) (filter : QueueFilter) (limit : ℕ)
    (now : ℤ) (requests : List VerificationRequest) :
    ∃ arrangement : ℕ → List VerificationRequest, ∀ offset,
      Arranges VerificationRequest.createdAt (filter.matching now requests) (arrangement offset) ∧
        order (filter.options limit now offset) ((filter.matching now requests).map rowOf) =
          (arrangement offset).map rowOf := by
  have hall : ∀ offset, ∃ arranged,
      Arranges VerificationRequest.createdAt (filter.matching now requests) arranged ∧
        order (filter.options limit now offset) ((filter.matching now requests).map rowOf) =
          arranged.map rowOf := by
    intro offset
    obtain ⟨hperm, hsorted⟩ := horder (filter.options limit now offset)
      ((filter.matching now requests).map rowOf)
    obtain ⟨arranged, hrows, heq⟩ :=
      (iff_of_eq (congrFun₂ (List.eq_map_comp_perm rowOf) _ _)).mpr hperm
    rw [hrows] at hsorted
    have hcreated := List.pairwise_map.mp hsorted
    exact ⟨arranged, ⟨heq, hcreated⟩, hrows⟩
  choose arrangement harrangement using hall
  exact ⟨arrangement, harrangement⟩

open Classical in
/-- And it can arrange them in any way. -/
theorem exists_order {arrangement : ℕ → List VerificationRequest}
    (harranged : ∀ offset, Arranges VerificationRequest.createdAt (filter.matching now requests)
      (arrangement offset)) (limit : ℕ) :
    ∃ order, OrdersByCreatedAt order ∧ ∀ offset,
      order (filter.options limit now offset) ((filter.matching now requests).map rowOf) =
        (arrangement offset).map rowOf := by
  refine ⟨fun options rows => if rows = (filter.matching now requests).map rowOf then
    (arrangement (options.offset.getD 0)).map rowOf
    else rows.insertionSort fun a b => a.createdAt ≤ b.createdAt, ?_, fun offset => if_pos rfl⟩
  intro options rows
  dsimp only
  split
  next hrows =>
    obtain ⟨hperm, hsorted⟩ := harranged (options.offset.getD 0)
    exact ⟨hrows ▸ hperm.map rowOf, List.pairwise_map.mpr hsorted⟩
  next => exact arranges_insertionSort _ rows

/-- The pages over a database are those of its arrangements. -/
theorem listsQueue_prisma_iff (hstored : StoredRequests requests) (hvalid : filter.Valid)
    (hlimit : 1 ≤ limit) (hmax : limit ≤ ListReviewQueue.MAX_QUEUE_PAGE_SIZE)
    {arrangement : ℕ → List VerificationRequest}
    (harranged : ∀ offset, Arranges VerificationRequest.createdAt (filter.matching now requests)
      (arrangement offset))
    (hrows : ∀ offset, order (filter.options limit now offset)
      ((filter.matching now requests).map rowOf) = (arrangement offset).map rowOf) :
    ListsQueue (.prisma order) clock filter limit now requests ↔
      ∃ pages, FollowsOffsets (fun offset => some (readAt limit arrangement offset)) limit 0 pages ∧
        QueueListed filter now requests (listed (pages.map
          (Page.map fun request => ListReviewQueue.toQueueItem request now))) := by
  have hpages : ListReviewQueue.pageAt ((QueueRepository.prisma order).findQueueCandidates requests
      clock) clock filter limit now = fun offset =>
        some ((readAt limit arrangement offset).map fun request =>
          ListReviewQueue.toQueueItem request now) :=
    funext fun offset =>
      pageAt_prisma hstored hvalid hlimit hmax (harranged offset).perm (hrows offset)
  rw [ListsQueue, hpages]
  constructor
  · rintro ⟨shown, hfollows, hlisted⟩
    obtain ⟨pages, hread, rfl⟩ := (followsOffsets_map_iff _).mp hfollows
    exact ⟨pages, hread, hlisted⟩
  · rintro ⟨pages, hread, hlisted⟩
    exact ⟨_, (followsOffsets_map_iff _).mpr ⟨pages, hread, rfl⟩, hlisted⟩

/-! ## Paging -/

/-- The pages over the repository in memory list the queue.  Those over the database do, in whatever
order it returns requests of one time for a call, exactly if no page ends between two of them. -/
theorem queue_paging_iff (filter : QueueFilter) (hvalid : filter.Valid) (limit : ℕ)
    (hlimit : 1 ≤ limit) (hmax : limit ≤ ListReviewQueue.MAX_QUEUE_PAGE_SIZE) (clock now : ℤ)
    (requests : List VerificationRequest) :
    ListsQueue .inMemory clock filter limit now requests ∧
      (StoredRequests requests →
        ((∀ order, OrdersByCreatedAt order →
            ListsQueue (.prisma order) clock filter limit now requests) ↔
          EndsApart VerificationRequest.createdAt (filter.matching now requests) limit)) := by
  refine ⟨listsQueue_inMemory hvalid hlimit hmax clock now requests, fun hstored => ?_⟩
  constructor
  · intro hall
    apply endsApart_of_nodup hlimit
    intro arrangement harranged
    obtain ⟨order, horder, hrows⟩ := exists_order harranged limit
    obtain ⟨pages, hread, hlisted⟩ :=
      (listsQueue_prisma_iff hstored hvalid hlimit hmax harranged hrows).mp (hall order horder)
    exact ⟨pages, hread, nodup_of_queueListed hstored.distinct hlisted⟩
  · intro happart order horder
    obtain ⟨arrangement, harrangement⟩ := exists_arrangement horder filter limit now requests
    have harranged := fun offset => (harrangement offset).1
    apply (listsQueue_prisma_iff hstored hvalid hlimit hmax harranged
      fun offset => (harrangement offset).2).mpr
    obtain ⟨pages, hread, hcomplete⟩ := exists_complete_of_endsApart happart hlimit harranged
    exact ⟨pages, hread, queueListed_of_complete hcomplete⟩

/-! ## Two requests of one time -/

namespace QueuePaging

/-- Two requests that were created at one time. -/
def twins : List VerificationRequest :=
  ["r-1", "r-2"].map fun id =>
    { id, subjectUserId := "u-1", organizationId := "o-1", type := .address, status := .submitted,
      createdAt := 5, updatedAt := 5 }

/-- A database that returns requests of one time the other way round for the second page. -/
def swapsLater (options : QueueCandidateOptions) (rows : List VerificationRequestRow) :
    List VerificationRequestRow :=
  (if options.offset = some 1 then rows.reverse else rows).insertionSort fun a b =>
    a.createdAt ≤ b.createdAt

theorem ordersByCreatedAt_swapsLater : OrdersByCreatedAt swapsLater := by
  intro options rows
  unfold swapsLater
  split
  · obtain ⟨hperm, hsorted⟩ := arranges_insertionSort VerificationRequestRow.createdAt rows.reverse
    exact ⟨hperm.trans (List.reverse_perm rows), hsorted⟩
  · exact arranges_insertionSort VerificationRequestRow.createdAt rows

theorem valid_default : ({} : QueueFilter).Valid := fun _ h => nomatch h

theorem storedRequests_twins : StoredRequests twins where
  distinct := by decide
  consistent := by
    intro request hrequest
    obtain ⟨id, -, rfl⟩ := List.mem_map.mp hrequest
    exact ⟨rfl, rfl, nofun, nofun⟩
  dated := by
    intro request hrequest claim hclaim
    obtain ⟨id, -, rfl⟩ := List.mem_map.mp hrequest
    exact nomatch hclaim

/-- The pages of size two have both. -/
theorem queue_paging_iff_twins :
    ListsQueue .inMemory 0 {} 2 0 twins ∧
      ((∀ order, OrdersByCreatedAt order → ListsQueue (.prisma order) 0 {} 2 0 twins) ↔
        EndsApart VerificationRequest.createdAt (QueueFilter.matching {} 0 twins) 2) :=
  have h := queue_paging_iff {} valid_default 2 (by decide) (by decide) 0 0 twins
  ⟨h.1, h.2 storedRequests_twins⟩

/-- Over that database, the pages of size one have one of them twice. -/
theorem not_listsQueue_twins :
    ({} : QueueFilter).Valid ∧ StoredRequests twins ∧ OrdersByCreatedAt swapsLater ∧
      ¬ ListsQueue (.prisma swapsLater) 0 {} 1 0 twins := by
  refine ⟨valid_default, storedRequests_twins, ordersByCreatedAt_swapsLater, ?_⟩
  have hmatching : QueueFilter.matching {} 0 twins = twins := by decide
  have harranged : ∀ offset, Arranges VerificationRequest.createdAt
      (QueueFilter.matching {} 0 twins) (if offset = 1 then twins.reverse else twins) := by
    intro offset
    rw [hmatching]
    split
    · exact ⟨List.reverse_perm twins, by decide⟩
    · exact ⟨List.Perm.refl twins, by decide⟩
  have hrows : ∀ offset, swapsLater (QueueFilter.options {} 1 0 offset)
      ((QueueFilter.matching {} 0 twins).map rowOf) =
        (if offset = 1 then twins.reverse else twins).map rowOf := by
    intro offset
    have hoption : (QueueFilter.options {} 1 0 offset).offset = some offset := rfl
    rw [hmatching, swapsLater, hoption]
    by_cases hoffset : offset = 1
    · rw [if_pos hoffset, if_pos (congrArg some hoffset)]
      decide
    · rw [if_neg hoffset, if_neg fun h => hoffset (Option.some.inj h)]
      decide
  rw [listsQueue_prisma_iff storedRequests_twins valid_default le_rfl (by decide) harranged hrows]
  rintro ⟨pages, hpages, hlisted⟩
  have hnodup := nodup_of_queueListed storedRequests_twins.distinct hlisted
  cases hpages with
  | last h hlast =>
    obtain rfl := Option.some.inj h
    exact absurd hlast (by decide)
  | more h hmore hrest =>
    obtain rfl := Option.some.inj h
    cases hrest with
    | last h' hlast =>
      obtain rfl := Option.some.inj h'
      exact absurd hnodup (by decide)
    | more h' hmore' _ =>
      obtain rfl := Option.some.inj h'
      exact absurd hmore' (by decide)

end QueuePaging

end Verixa.Verification
