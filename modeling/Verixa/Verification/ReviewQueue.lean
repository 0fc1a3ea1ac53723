import Mathlib.Data.List.Sort
import Verixa.Collections.OffsetPaging
import Verixa.Verification.VerificationRequestMapper

/-!
# The review queue

`ListReviewQueue` lists the requests that a reviewer can pick up, oldest first, page by page.  The
repository filters, orders and cuts.  The one in memory sorts its requests anew for every call, and
stably; the database orders rows by the time of their creation alone, so that it may return rows of
equal times in another order for every call.
-/

namespace Verixa.Verification

open OffsetPaging

/-! ## Queries -/

inductive QueueAssignmentFilter where
  | any
  | assigned
  | unassigned
  deriving DecidableEq

/-- What a repository is asked for. -/
structure QueueCandidateOptions where
  statuses : Option (List VerificationStatus) := none
  verificationType : Option VerificationType := none
  assignment : Option QueueAssignmentFilter := none
  now : Option ℤ := none
  limit : Option ℕ := none
  offset : Option ℕ := none

/-- What is asked of the queue. -/
structure ListReviewQueueQuery where
  status : Option VerificationStatus := none
  verificationType : Option VerificationType := none
  assignment : Option QueueAssignmentFilter := none
  limit : Option Number := none
  offset : Option Number := none
  now : Option ℤ := none

/-- The live claim on a row. -/
structure ReviewQueueClaim where
  reviewerId : String
  claimedAt : ℤ
  expiresAt : Option ℤ
  deriving DecidableEq

/-- A row of the queue. -/
structure ReviewQueueItem where
  requestId : String
  subjectUserId : String
  organizationId : String
  verificationType : VerificationType
  status : VerificationStatus
  createdAt : ℤ
  updatedAt : ℤ
  claim : Option ReviewQueueClaim
  deriving DecidableEq

structure ReviewQueuePage where
  items : List ReviewQueueItem
  limit : ℕ
  offset : ℕ
  hasMore : Bool

/-! ## The use case -/

namespace ListReviewQueue

def DEFAULT_QUEUE_PAGE_SIZE : ℕ := 25

def MAX_QUEUE_PAGE_SIZE : ℕ := 100

/-- The statuses in which someone can pick a request up. -/
def REVIEWABLE_STATUSES : List VerificationStatus := [.submitted, .inReview]

/-- The whole number that a number is, if it is one and not negative. -/
def naturalOf (value : Number) : Option ℕ :=
  match value with
  | .finite q => if q.den = 1 ∧ 0 ≤ q.num then some q.num.toNat else none
  | _ => none

/-- The statuses a query lists, if the one it names is among those of the queue. -/
def resolveStatuses (status : Option VerificationStatus) : Option (List VerificationStatus) :=
  match status with
  | none => some REVIEWABLE_STATUSES
  | some status => if REVIEWABLE_STATUSES.contains status then some [status] else none

/-- The size of a page, if the one asked for is allowed. -/
def resolveLimit (limit : Option Number) : Option ℕ :=
  match limit with
  | none => some DEFAULT_QUEUE_PAGE_SIZE
  | some limit => (naturalOf limit).filter fun n => 1 ≤ n ∧ n ≤ MAX_QUEUE_PAGE_SIZE

/-- Where a page begins, if that is a place. -/
def resolveOffset (offset : Option Number) : Option ℕ :=
  match offset with
  | none => some 0
  | some offset => naturalOf offset

/-- What is wrong with a query, field by field. -/
def objections (query : ListReviewQueueQuery) : List (String × List String) :=
  (if (resolveStatuses query.status).isNone then [("status", ["not_reviewable"])] else []) ++
    (if (resolveLimit query.limit).isNone then
      [("limit", ["must be an integer between 1 and " ++ Nat.repr MAX_QUEUE_PAGE_SIZE])] else []) ++
    (if (resolveOffset query.offset).isNone then
      [("offset", ["must be a non-negative integer"])] else [])

/-- The row of a request; a claim that has lapsed is left out. -/
def toQueueItem (request : VerificationRequest) (now : ℤ) : ReviewQueueItem where
  requestId := request.id
  subjectUserId := request.subjectUserId
  organizationId := request.organizationId
  verificationType := request.type
  status := request.status
  createdAt := request.createdAt
  updatedAt := request.updatedAt
  claim :=
    match request.assignment with
    | none => none
    | some claim =>
      if !claim.isActiveAt now then none
      else some
        { reviewerId := claim.reviewerId, claimedAt := claim.assignedAt,
          expiresAt := claim.claimExpiresAt }

/-- `listReviewQueue.execute(query)`, given what the repository finds; `clock` is what the clock
shows. -/
def execute (find : QueueCandidateOptions → Except ThrownError (List VerificationRequest))
    (clock : ℤ) (query : ListReviewQueueQuery) :
    Except ThrownError (Except ValidationError ReviewQueuePage) :=
  let now := query.now.getD clock
  match resolveStatuses query.status, resolveLimit query.limit, resolveOffset query.offset with
  | some statuses, some limit, some offset =>
    match find { statuses, verificationType := query.verificationType,
                 assignment := query.assignment, now, limit := some (limit + 1),
                 offset := some offset } with
    | .error error => .error error
    | .ok rows =>
      let hasMore := decide (limit < rows.length)
      let items := (if hasMore then rows.take limit else rows).map fun request =>
        toQueueItem request now
      .ok (.ok { items, limit, offset, hasMore })
  | _, _, _ => .ok (.error ⟨"The review queue query is invalid.", objections query⟩)

end ListReviewQueue

/-! ## The repositories -/

/-- Whether a request is on the side of the queue that is asked for. -/
def matchesAssignment (request : VerificationRequest) (filter : QueueAssignmentFilter) (now : ℤ) :
    Bool :=
  match filter with
  | .any => true
  | .assigned => request.assignment.any fun claim => claim.isActiveAt now
  | .unassigned => !(request.assignment.any fun claim => claim.isActiveAt now)

namespace InMemoryVerificationRequestRepository

/-- Whether a request is asked for. -/
def isCandidate (options : QueueCandidateOptions) (now : ℤ) (request : VerificationRequest) :
    Bool :=
  (options.statuses.all fun statuses => statuses.contains request.status) &&
    (options.verificationType.all fun type => decide (request.type = type)) &&
    matchesAssignment request (options.assignment.getD .any) now

/-- `repository.findQueueCandidates(options)` over the requests in the order of the map. -/
def findQueueCandidates (requests : List VerificationRequest) (clock : ℤ)
    (options : QueueCandidateOptions) : List VerificationRequest :=
  let rows := (requests.filter (isCandidate options (options.now.getD clock))).insertionSort
    fun a b => a.createdAt ≤ b.createdAt
  let rows := rows.drop (options.offset.getD 0)
  match options.limit with
  | none => rows
  | some limit => rows.take limit

end InMemoryVerificationRequestRepository

namespace PrismaVerificationRequestRepository

/-- A column compares with a time as asked; `null` does not, nor a date that is no date. -/
def columnHolds (column : Option (Option ℤ)) (holds : ℤ → Bool) : Bool :=
  column.any fun time => time.any holds

/-- What the query asks of a row. -/
def isSelected (options : QueueCandidateOptions) (type : Option String) (now : ℤ)
    (row : VerificationRequestRow) : Bool :=
  (options.statuses.all fun statuses => (statuses.map VerificationStatus.text).contains row.status)
    && (type.all fun type => decide (row.type = type)) &&
    match options.assignment with
    | some .assigned =>
      row.assignedReviewerId.isSome && columnHolds row.claimExpiresAt fun time => now < time
    | some .unassigned =>
      row.assignedReviewerId.isNone || columnHolds row.claimExpiresAt fun time => time ≤ now
    | _ => true

/-- `repository.findQueueCandidates(options)`; `order` is the order in which the database returns
the rows it has selected. -/
def findQueueCandidates (table : List VerificationRequestRow) (clock : ℤ)
    (order : List VerificationRequestRow → List VerificationRequestRow)
    (options : QueueCandidateOptions) : Except ThrownError (List VerificationRequest) := do
  let type ← options.verificationType.mapM VerificationRequestMapper.toDbVerificationType
  let rows := order (table.filter (isSelected options type (options.now.getD clock)))
  let rows := rows.drop (options.offset.getD 0)
  let rows := match options.limit with
    | none => rows
    | some limit => rows.take limit
  rows.mapM VerificationRequestMapper.toDomain

end PrismaVerificationRequestRepository

end Verixa.Verification
