import Verixa.SharedKernel.NumberArithmetic
import Verixa.Audit.RecordAuditEvent

/-!
# Reading the audit log

`QueryAuditEvents` lists the entries of an organization that match some criteria, and
`ApplyAuditRetentionPolicy` those that are older than a policy allows, both page by page.  A query
is authorized and recorded before anything is read: `recordAuditEvent` is what becomes of an
attempt to record an event, and a read that could not be recorded is refused.

A bound that is an invalid date compares to nothing, and has no text.
-/

namespace Verixa

/-! ## Who may read -/

/-- The two ways the audit log can be read. -/
inductive AuditReadOperation where
  | query
  | export
  deriving DecidableEq

/-- The name of an operation. -/
def AuditReadOperation.text : AuditReadOperation → String
  | .query => "query"
  | .export => "export"

/-- The permission an operation needs. -/
def AUDIT_PERMISSIONS : AuditReadOperation → String
  | .query => "audit:query"
  | .export => "audit:export"

/-- Who is asking to read the audit log. -/
structure AuditReader where
  actorId : String
  organizationId : String
  permissions : List String

/-- Why a read was refused. -/
inductive AuditAccessDenialReason where
  | missingPermission
  | crossOrganization
  deriving DecidableEq

/-- The text under which a reason is recorded. -/
def AuditAccessDenialReason.text : AuditAccessDenialReason → String
  | .missingPermission => "missing_permission"
  | .crossOrganization => "cross_organization"

/-- What ends a read: a refusal, a read that was not recorded, or an exception. -/
inductive AuditReadError where
  | accessDenied (reason : AuditAccessDenialReason)
  | notRecorded
  | thrown (error : RangeError)
  deriving DecidableEq

/-- Decides whether `reader` may perform `operation` on the log of an organization. -/
def authorizeAuditRead (reader : AuditReader) (operation : AuditReadOperation)
    (organizationId : String) : Except AuditAccessDenialReason Unit :=
  if reader.organizationId ≠ organizationId then .error .crossOrganization
  else if AUDIT_PERMISSIONS operation ∉ reader.permissions then .error .missingPermission
  else .ok ()

/-- What a read of the audit log is scoped to; `some none` is an invalid date. -/
structure AuditEventCriteria where
  organizationId : String
  actorId : Option String
  subjectId : Option String
  fromDate : Option (Option Date)
  toDate : Option (Option Date)

/-- Set a field of a record, if there is a value. -/
def setField (record : StringRecord) (key : String) (value : Option String) : StringRecord :=
  value.elim record (record.set key)

/-- The text of a date that may be absent; that of an invalid date is an exception. -/
def isoText : Option (Option Date) → Except RangeError (Option String)
  | none => .ok none
  | some none => .error ⟨"Invalid time value"⟩
  | some (some date) => .ok (some date.toISOString)

/-- The criteria as audit metadata. -/
def describe (criteria : AuditEventCriteria) : Except RangeError StringRecord := do
  let metadata := OrderedMap.empty.set "organizationId" criteria.organizationId
  let metadata := setField metadata "filter.actorId" criteria.actorId
  let metadata := setField metadata "filter.subjectId" criteria.subjectId
  let metadata := setField metadata "filter.from" (← isoText criteria.fromDate)
  return setField metadata "filter.to" (← isoText criteria.toDate)

/-- The events offered for recording, and how a read ends. -/
structure AuditReadOutcome (α : Type) where
  recorded : List RecordAuditEventCommand
  result : Except AuditReadError α

/-- The event of a read. -/
def readEvent (action : AuditAction) (reader : AuditReader) (criteria : AuditEventCriteria)
    (metadata : StringRecord) : RecordAuditEventCommand where
  action := action
  actorId := some reader.actorId
  subjectId := some criteria.organizationId
  metadata := some metadata
  occurredAt := none

/-- Authorizes a read of the audit log and records it. -/
def authorizeAndRecordAuditRead
    (recordAuditEvent : RecordAuditEventCommand → Option AuditLogEntry) (reader : AuditReader)
    (operation : AuditReadOperation) (criteria : AuditEventCriteria) : AuditReadOutcome Unit :=
  match authorizeAuditRead reader operation criteria.organizationId, describe criteria with
  | _, .error error => ⟨[], .error (.thrown error)⟩
  | .error reason, .ok metadata =>
    let metadata := ((metadata.set "operation" operation.text).set "reason" reason.text).set
      "actorOrganizationId" reader.organizationId
    ⟨[readEvent .auditAccessDenied reader criteria metadata], .error (.accessDenied reason)⟩
  | .ok (), .ok metadata =>
    let action := match operation with
      | .query => AuditAction.auditQueried
      | .export => AuditAction.auditExported
    let command := readEvent action reader criteria metadata
    match recordAuditEvent command with
    | none => ⟨[command], .error .notRecorded⟩
    | some _ => ⟨[command], .ok ()⟩

/-! ## Queries -/

/-- `date >= bound`. -/
def notBefore (date : Date) (bound : Option Date) : Bool :=
  bound.any fun bound => decide (bound.time ≤ date.time)

/-- `date <= bound`. -/
def notAfter (date : Date) (bound : Option Date) : Bool :=
  bound.any fun bound => decide (date.time ≤ bound.time)

/-- Whether an entry matches the criteria other than the organization. -/
def AuditEventCriteria.matchesEntry (criteria : AuditEventCriteria) (entry : AuditLogEntry) :
    Bool :=
  criteria.actorId.all (fun actorId => decide (entry.actorId = some actorId)) &&
    criteria.subjectId.all (fun subjectId => decide (entry.subjectId = some subjectId)) &&
    criteria.fromDate.all (notBefore entry.occurredAt) &&
    criteria.toDate.all (notAfter entry.occurredAt)

namespace InMemoryAuditEventReader

/-- The matching entries, by sequence number; every entry is filed under an organization. -/
def matching (entries : List (String × AuditLogEntry)) (criteria : AuditEventCriteria) :
    List AuditLogEntry :=
  (((entries.filter fun filed => decide (filed.1 = criteria.organizationId)).map Prod.snd).filter
    criteria.matchesEntry).mergeSort fun a b => decide (a.sequence ≤ b.sequence)

/-- The matching entries behind a cursor, at most `limit` of them. -/
def query (entries : List (String × AuditLogEntry)) (criteria : AuditEventCriteria)
    (afterSequence : Option ℤ) (limit : Number) : List AuditLogEntry :=
  sliceTo ((matching entries criteria).filter fun entry =>
    decide (afterSequence.getD 0 < entry.sequence)) limit

end InMemoryAuditEventReader

/-- The largest page a single query may return. -/
def MAX_AUDIT_QUERY_PAGE_SIZE : ℕ := 100

/-- The size of a page when none is asked for. -/
def DEFAULT_PAGE_SIZE : ℕ := 50

/-- What to query. -/
structure QueryAuditEventsCommand where
  reader : AuditReader
  criteria : AuditEventCriteria
  afterSequence : Option ℤ
  limit : Option Number

/-- One page of the log, plus where the next page starts. -/
structure QueryAuditEventsResult where
  entries : List AuditLogEntry
  nextCursor : Option ℤ
  hasMore : Bool

/-- The limit that is used. -/
def clampedLimit (limit : Option Number) : Number :=
  ((limit.getD (.finite DEFAULT_PAGE_SIZE)).trunc.max (.finite (1 : ℕ))).min
    (.finite MAX_AUDIT_QUERY_PAGE_SIZE)

/-- Reads one page of an organization's audit log. -/
def QueryAuditEvents.execute (stored : List (String × AuditLogEntry))
    (recordAuditEvent : RecordAuditEventCommand → Option AuditLogEntry)
    (command : QueryAuditEventsCommand) : AuditReadOutcome QueryAuditEventsResult :=
  let access := authorizeAndRecordAuditRead recordAuditEvent command.reader .query command.criteria
  match access.result with
  | .error error => ⟨access.recorded, .error error⟩
  | .ok () =>
    let limit := clampedLimit command.limit
    let page := InMemoryAuditEventReader.query stored command.criteria command.afterSequence
      limit.succ
    let hasMore := limit.lt (.finite page.length)
    let entries := if hasMore then sliceTo page limit else page
    ⟨access.recorded, .ok
      { entries := entries
        nextCursor := if hasMore then entries.getLast?.map (fun entry => entry.sequence) else none
        hasMore := hasMore }⟩

/-! ## Retention -/

/-- Filters of the repository; an empty text is no filter. -/
structure AuditLogFilters where
  actorId : Option String := none
  subjectId : Option String := none
  organizationId : Option String := none
  action : Option String := none
  fromDate : Option (Option Date) := none
  toDate : Option (Option Date) := none

/-- Whether a value passes a filter that may be absent or empty. -/
def passesFilter (filter value : Option String) : Bool :=
  filter.all fun text => decide (text = "") || decide (value = some text)

/-- Whether an entry passes the filters. -/
def AuditLogFilters.pass (filters : AuditLogFilters) (entry : AuditLogEntry) : Bool :=
  passesFilter filters.actorId entry.actorId &&
    passesFilter filters.subjectId entry.subjectId &&
    passesFilter filters.action (some entry.action) &&
    passesFilter filters.organizationId (entry.metadata.get? "organizationId") &&
    filters.fromDate.all (notBefore entry.occurredAt) &&
    filters.toDate.all (notAfter entry.occurredAt)

/-- Queries entries with filters. -/
def InMemoryAuditLogRepository.findWithFilters (entries : List AuditLogEntry)
    (filters : AuditLogFilters) (fromSequence : ℤ) (limit : Number) : List AuditLogEntry :=
  sliceTo ((entries.filter fun entry => decide (fromSequence ≤ entry.sequence)).filter
    filters.pass) limit

/-- How long an audit trail is kept: the instant at or before which an entry is past retention. -/
structure RetentionPolicy where
  name : String
  cutoffDate : Date → Option Date

/-- A day in milliseconds. -/
def MS_PER_DAY : ℤ := 86400000

/-- Keep entries for some days. -/
def AgeRetentionPolicy (name : String) (days : ℕ) : RetentionPolicy where
  name := name
  cutoffDate now := Date.ofTime? (now.time - days * MS_PER_DAY)

/-- The policy used when a caller supplies none. -/
def DEFAULT_RETENTION_POLICY : RetentionPolicy := AgeRetentionPolicy "default-7y" (7 * 365)

/-- What to review. -/
structure ApplyRetentionPolicyCommand where
  now : Option Date
  cursor : Option ℤ
  limit : Option Number
  organizationId : Option String

/-- An entry the policy says is past retention. -/
structure RetentionCandidate where
  entry : AuditLogEntry
  ageDays : ℤ

/-- What a retention run produced. -/
structure RetentionReview where
  policy : String
  evaluatedAt : Date
  cutoff : Option Date
  candidates : List RetentionCandidate
  evaluatedThroughSequence : Option ℤ
  nextCursor : Option ℤ
  hasMore : Bool
  disposition : String

/-- How many entries a run examines when no limit is given. -/
def DEFAULT_RETENTION_LIMIT : ℕ := 200

/-- Identifies the entries that have outlived the policy; `clock` is what `new Date()` returns. -/
def ApplyAuditRetentionPolicy.execute (log : List AuditLogEntry) (policy : RetentionPolicy)
    (clock : Date) (command : ApplyRetentionPolicyCommand) : RetentionReview :=
  let now := command.now.getD clock
  let cutoff := policy.cutoffDate now
  let limit := command.limit.getD (.finite DEFAULT_RETENTION_LIMIT)
  let cursor := command.cursor.getD 0
  let entries := InMemoryAuditLogRepository.findWithFilters log
    { toDate := some cutoff, organizationId := command.organizationId } (cursor + 1) limit.succ
  let hasMore := limit.lt (.finite entries.length)
  let examined := if hasMore then sliceTo entries limit else entries
  { policy := policy.name
    evaluatedAt := now
    cutoff := cutoff
    candidates := examined.map fun entry =>
      ⟨entry, (now.time - entry.occurredAt.time) / MS_PER_DAY⟩
    evaluatedThroughSequence := examined.getLast?.map fun entry => entry.sequence
    nextCursor :=
      if hasMore ∧ 0 < examined.length then examined.getLast?.map fun entry => entry.sequence
      else none
    hasMore := hasMore
    disposition := "identified_only" }

end Verixa
