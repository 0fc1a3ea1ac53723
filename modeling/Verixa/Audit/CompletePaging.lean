import Verixa.Collections.KeysetPaging
import Verixa.Audit.AuditReading
import Verixa.Audit.VerifyWindow

/-!
# Paging through the log is complete

Both listings read one row more than a page holds and go on behind the last entry of a page, one
with an exclusive cursor and one with an inclusive one.  Following the cursors lists the matching
entries once each, in ascending order.  The clamp of a query's limit lets one number through that is
none: then a page is empty, and the last, whatever matches (`complete_paging_iff`).
-/

namespace Verixa

open KeysetPaging

/-- A page of a query. -/
def QueryAuditEventsResult.toPage (result : QueryAuditEventsResult) : Page ℤ AuditLogEntry :=
  ⟨result.entries, result.nextCursor, result.hasMore⟩

/-- A page of a retention run. -/
def RetentionReview.toPage (review : RetentionReview) : Page ℤ AuditLogEntry :=
  ⟨review.candidates.map RetentionCandidate.entry, review.nextCursor, review.hasMore⟩

/-- Following the cursors from the first page ends, and lists every matching entry once and in
ascending order, on pages of at most `limit` entries of which only the last says that none
follows. -/
def ListsAll (read : Option ℤ → Page ℤ AuditLogEntry) (matching : AuditLogEntry → Prop)
    (limit : Number) : Prop :=
  ∃ pages, FollowsCursors read none pages ∧
    Ascending (pages.map Page.items).flatten ∧
    (∀ entry, entry ∈ (pages.map Page.items).flatten ↔ matching entry) ∧
    (∀ page ∈ pages, limit.lt (.finite page.items.length) = false) ∧
    ∃ front last, pages = front ++ [last] ∧ (∀ page ∈ front, page.hasMore = true) ∧
      last.hasMore = false

/-- Complete pages list all entries of the list they are cut from. -/
theorem listsAll_of_complete {read : Option ℤ → Page ℤ AuditLogEntry}
    {items : List AuditLogEntry} {matching : AuditLogEntry → Prop} {limit : ℕ}
    {pages : List (Page ℤ AuditLogEntry)} (hitems : Ascending items)
    (hmatching : ∀ entry, entry ∈ items ↔ matching entry)
    (hfollows : FollowsCursors read none pages) (hcomplete : Complete limit items pages) :
    ListsAll read matching (.finite limit) := by
  refine ⟨pages, hfollows, ?_, ?_, fun page hpage => ?_, hcomplete.lastOnly⟩
  · rw [hcomplete.concatenated]
    exact hitems
  · rw [hcomplete.concatenated]
    exact hmatching
  · rw [Number.lt_natCast, decide_eq_false_iff_not, not_lt]
    exact hcomplete.bounded page hpage

/-- The page made of one row more than it holds, as both listings compute it. -/
theorem pageOf_take {entries : List AuditLogEntry} {limit : ℕ} :
    let rows := sliceTo entries (Number.finite limit).succ
    let hasMore := (Number.finite limit).lt (.finite rows.length)
    let page := if hasMore then sliceTo rows (.finite limit) else rows
    (⟨page, if hasMore then page.getLast?.map (fun entry => entry.sequence) else none, hasMore⟩ :
        Page ℤ AuditLogEntry) =
      pageOf (fun entry => entry.sequence) limit (entries.take (limit + 1)) := by
  intro rows hasMore page
  have hrows : rows = entries.take (limit + 1) := by
    simp only [rows, Number.succ_natCast, Number.sliceTo_natCast]
  have hmore : hasMore = decide (limit < (entries.take (limit + 1)).length) := by
    simp only [hasMore, hrows, Number.lt_natCast]
  by_cases hlt : limit < (entries.take (limit + 1)).length
  · have htrue : hasMore = true := by rw [hmore, decide_eq_true hlt]
    have hpage : page = (entries.take (limit + 1)).take limit := by
      simp only [page, htrue, if_true, hrows, Number.sliceTo_natCast]
    rw [pageOf, if_pos hlt, htrue, if_pos rfl, hpage]
  · have hfalse : hasMore = false := by rw [hmore, decide_eq_false hlt]
    have hpage : page = entries.take (limit + 1) := by
      simp only [page, hfalse, Bool.false_eq_true, if_false, hrows]
    rw [pageOf, if_neg hlt, hfalse, hpage]
    rfl

/-! ## Queries -/

section Query

variable {stored : List (String × AuditLogEntry)} {criteria : AuditEventCriteria}

/-- The entries filed under the organization that match the other criteria. -/
def Matches (stored : List (String × AuditLogEntry)) (criteria : AuditEventCriteria)
    (entry : AuditLogEntry) : Prop :=
  (criteria.organizationId, entry) ∈ stored ∧
    (∀ actorId ∈ criteria.actorId, entry.actorId = some actorId) ∧
    (∀ subjectId ∈ criteria.subjectId, entry.subjectId = some subjectId) ∧
    (∀ bound ∈ criteria.fromDate, ∃ date ∈ bound, date.time ≤ entry.occurredAt.time) ∧
    ∀ bound ∈ criteria.toDate, ∃ date ∈ bound, entry.occurredAt.time ≤ date.time

theorem notBefore_iff {date : Date} {bound : Option Date} :
    notBefore date bound = true ↔ ∃ b ∈ bound, b.time ≤ date.time := by
  cases bound <;> simp [notBefore]

theorem notAfter_iff {date : Date} {bound : Option Date} :
    notAfter date bound = true ↔ ∃ b ∈ bound, date.time ≤ b.time := by
  cases bound <;> simp [notAfter]

/-- The filters of the reader select the matching entries. -/
theorem mem_matching_iff {entry : AuditLogEntry} :
    entry ∈ InMemoryAuditEventReader.matching stored criteria ↔
      Matches stored criteria entry := by
  have hfiled : (∃ filed ∈ stored, filed.1 = criteria.organizationId ∧ filed.2 = entry) ↔
      (criteria.organizationId, entry) ∈ stored := by
    constructor
    · rintro ⟨⟨organizationId, filed⟩, hmem, rfl, rfl⟩
      exact hmem
    · exact fun hmem => ⟨_, hmem, rfl, rfl⟩
  rw [InMemoryAuditEventReader.matching, List.mem_mergeSort, List.mem_filter, List.mem_map]
  simp only [List.mem_filter, decide_eq_true_eq, and_assoc, hfiled, Matches,
    AuditEventCriteria.matchesEntry, Bool.and_eq_true, Option.all_eq_true, notBefore_iff,
    notAfter_iff]
  exact Iff.rfl

/-- Distinct numbers are in strictly ascending order once they are sorted. -/
theorem ascending_matching
    (hdistinct : (stored.map fun filed => filed.2.sequence).Nodup) :
    Ascending (InMemoryAuditEventReader.matching stored criteria) := by
  have htrans : ∀ a b c : AuditLogEntry, decide (a.sequence ≤ b.sequence) = true →
      decide (b.sequence ≤ c.sequence) = true → decide (a.sequence ≤ c.sequence) = true := by
    simp only [decide_eq_true_eq]
    intro a b c hab hbc
    omega
  have htotal : ∀ a b : AuditLogEntry,
      (decide (a.sequence ≤ b.sequence) || decide (b.sequence ≤ a.sequence)) = true := by
    simp only [Bool.or_eq_true, decide_eq_true_eq]
    intro a b
    omega
  have hsorted := List.pairwise_mergeSort htrans htotal
    (((stored.filter fun filed => decide (filed.1 = criteria.organizationId)).map Prod.snd).filter
      criteria.matchesEntry)
  have hsublist : ((((stored.filter fun filed => decide (filed.1 = criteria.organizationId)).map
      Prod.snd).filter criteria.matchesEntry).map fun entry => entry.sequence).Sublist
        (stored.map fun filed => filed.2.sequence) := by
    have hfiled := (List.filter_sublist.trans
      (List.filter_sublist.map Prod.snd) :
        List.Sublist (((stored.filter fun filed =>
          decide (filed.1 = criteria.organizationId)).map Prod.snd).filter criteria.matchesEntry)
          (stored.map Prod.snd)).map fun entry => entry.sequence
    rwa [List.map_map] at hfiled
  have hnodup : ((InMemoryAuditEventReader.matching stored criteria).map
      fun entry => entry.sequence).Nodup :=
    ((List.mergeSort_perm _ _).map _).nodup_iff.mpr (hdistinct.sublist hsublist)
  have hne := List.pairwise_map.mp hnodup
  refine hsorted.imp₂ (fun a b hle hneq => ?_) hne
  simp only [decide_eq_true_eq] at hle
  omega

/-- What is behind a cursor of a query. -/
theorem filter_after_eq_behind (hpositive : ∀ filed ∈ stored, 0 < filed.2.sequence)
    (cursor : Option ℤ) :
    (InMemoryAuditEventReader.matching stored criteria).filter
        (fun entry => decide (cursor.getD 0 < entry.sequence)) =
      behind (fun entry => entry.sequence)
        (InMemoryAuditEventReader.matching stored criteria) cursor := by
  cases cursor with
  | some cursor => rfl
  | none =>
    refine List.filter_eq_self.mpr fun entry hentry => ?_
    have hstored := (mem_matching_iff.mp hentry).1
    simpa using hpositive _ hstored

variable {recordAuditEvent : RecordAuditEventCommand → Option AuditLogEntry}
  {command : QueryAuditEventsCommand}

/-- A page of a query whose limit is a number. -/
theorem page_of_query (hpositive : ∀ filed ∈ stored, 0 < filed.2.sequence)
    (haccess : (authorizeAndRecordAuditRead recordAuditEvent command.reader .query
      command.criteria).result = .ok ()) {limit : ℕ}
    (hlimit : clampedLimit command.limit = .finite limit) (cursor : Option ℤ) :
    ∃ result, (QueryAuditEvents.execute stored recordAuditEvent
        { command with afterSequence := cursor }).result = .ok result ∧
      result.toPage = pageOf (fun entry => entry.sequence) limit
        ((behind (fun entry => entry.sequence)
          (InMemoryAuditEventReader.matching stored command.criteria) cursor).take
            (limit + 1)) := by
  refine ⟨_, by simp only [QueryAuditEvents.execute, haccess]; rfl, ?_⟩
  rw [← pageOf_take, ← filter_after_eq_behind hpositive]
  simp only [QueryAuditEventsResult.toPage, InMemoryAuditEventReader.query, hlimit]

/-- A page of a query whose limit is none. -/
theorem page_of_query_nan
    (haccess : (authorizeAndRecordAuditRead recordAuditEvent command.reader .query
      command.criteria).result = .ok ())
    (hlimit : clampedLimit command.limit = .nan) (cursor : Option ℤ) :
    ∃ result, (QueryAuditEvents.execute stored recordAuditEvent
        { command with afterSequence := cursor }).result = .ok result ∧
      result.toPage = ⟨[], none, false⟩ := by
  refine ⟨_, by simp only [QueryAuditEvents.execute, haccess]; rfl, ?_⟩
  have hempty : ∀ items : List AuditLogEntry, sliceTo items .nan = [] := fun items =>
    List.take_zero
  simp only [QueryAuditEventsResult.toPage, InMemoryAuditEventReader.query, hlimit, Number.succ,
    hempty, Number.lt]
  rfl

variable (stored recordAuditEvent command) in
/-- Every page of the query is read, and following the cursors lists all matching entries. -/
def QueryListsAll : Prop :=
  ∃ read : Option ℤ → QueryAuditEventsResult,
    (∀ cursor, (QueryAuditEvents.execute stored recordAuditEvent
      { command with afterSequence := cursor }).result = .ok (read cursor)) ∧
    ListsAll (fun cursor => (read cursor).toPage) (Matches stored command.criteria)
      (clampedLimit command.limit)

/-- A query lists all matching entries unless its limit is no number and some entry matches. -/
theorem queryListsAll_iff (hdistinct : (stored.map fun filed => filed.2.sequence).Nodup)
    (hpositive : ∀ filed ∈ stored, 0 < filed.2.sequence)
    (haccess : (authorizeAndRecordAuditRead recordAuditEvent command.reader .query
      command.criteria).result = .ok ()) :
    QueryListsAll stored recordAuditEvent command ↔
      (command.limit = some .nan → ∀ entry, ¬ Matches stored command.criteria entry) := by
  have hascending := @ascending_matching stored command.criteria hdistinct
  by_cases hnan : command.limit = some .nan
  · have hclamped : clampedLimit command.limit = .nan := by
      rw [hnan]
      rfl
    choose read hread hpage using @page_of_query_nan stored recordAuditEvent command haccess
      hclamped
    have hpages : (fun cursor => (read cursor).toPage) = fun _ => ⟨[], none, false⟩ :=
      funext hpage
    constructor
    · rintro ⟨read', hread', pages, hfollows, -, hmatching, -⟩ - entry hentry
      have hsame : read' = read := funext fun cursor =>
        Except.ok.inj ((hread' cursor).symm.trans (hread cursor))
      rw [hsame, hpages] at hfollows
      have hlisted := (hmatching entry).mpr hentry
      cases hfollows with
      | last h => simp at hlisted
      | more h rest => cases h
    · intro hnone
      refine ⟨read, hread, ?_⟩
      rw [hpages, hclamped]
      refine ⟨_, .last rfl, List.Pairwise.nil, fun entry => ?_, by simp [Number.lt],
        [], _, rfl, by simp, rfl⟩
      exact iff_of_false (by simp) (hnone hnan entry)
  · obtain ⟨limit, hone, -, hlimit⟩ : ∃ n : ℕ, 1 ≤ n ∧ n ≤ MAX_AUDIT_QUERY_PAGE_SIZE ∧
        clampedLimit command.limit = .finite n := by
      refine Number.exists_clamp (by decide) ?_
      cases hgiven : command.limit with
      | none => simp
      | some given =>
        rintro rfl
        exact hnan hgiven
    refine iff_of_true ?_ fun hlimit => absurd hlimit hnan
    choose read hread hpage using @page_of_query stored recordAuditEvent command hpositive haccess
      _ hlimit
    obtain ⟨pages, hfollows, hcomplete⟩ := exists_complete hone hascending hpage
    refine ⟨read, hread, ?_⟩
    rw [hlimit]
    exact listsAll_of_complete hascending (fun entry => mem_matching_iff) hfollows hcomplete

end Query

/-! ## Retention -/

section Retention

variable {log : List AuditLogEntry} {policy : RetentionPolicy} {now : Date}
  {command : ApplyRetentionPolicyCommand}

/-- The entries of the log that are past retention at `now`, and of the organization if one is
given. -/
def PastRetention (log : List AuditLogEntry) (policy : RetentionPolicy) (now : Date)
    (organizationId : Option String) (entry : AuditLogEntry) : Prop :=
  entry ∈ log ∧
    (∀ id ∈ organizationId, id = "" ∨ entry.metadata.get? "organizationId" = some id) ∧
    ∃ cutoff ∈ policy.cutoffDate now, entry.occurredAt.time ≤ cutoff.time

/-- The filters of a retention run. -/
def retentionFilters (policy : RetentionPolicy) (now : Date) (organizationId : Option String) :
    AuditLogFilters :=
  { toDate := some (policy.cutoffDate now), organizationId := organizationId }

/-- The filters select what is past retention. -/
theorem mem_filter_pass_iff {organizationId : Option String} {entry : AuditLogEntry} :
    entry ∈ log.filter (retentionFilters policy now organizationId).pass ↔
      PastRetention log policy now organizationId entry := by
  rw [List.mem_filter]
  simp only [AuditLogFilters.pass, retentionFilters, passesFilter, Option.all_none,
    Option.all_some, Bool.and_true, Bool.true_and, Bool.and_eq_true, Option.all_eq_true,
    Bool.or_eq_true, decide_eq_true_eq, notAfter_iff]
  exact Iff.rfl

/-- What is behind a cursor of a retention run. -/
theorem filter_from_eq_behind (hpositive : ∀ entry ∈ log, 0 < entry.sequence)
    (filters : AuditLogFilters) (cursor : Option ℤ) :
    (log.filter fun entry => decide (cursor.getD 0 + 1 ≤ entry.sequence)).filter filters.pass =
      behind (fun entry => entry.sequence) (log.filter filters.pass) cursor := by
  cases cursor with
  | some cursor =>
    rw [behind, List.filter_filter, List.filter_filter]
    refine List.filter_congr fun entry _ => ?_
    have hinclusive : decide (cursor + 1 ≤ entry.sequence) = decide (cursor < entry.sequence) :=
      decide_eq_decide.mpr (by omega)
    rw [Option.getD_some, hinclusive, Bool.and_comm]
  | none =>
    have hall : (log.filter fun entry => decide ((none : Option ℤ).getD 0 + 1 ≤ entry.sequence)) =
        log := by
      refine List.filter_eq_self.mpr fun entry hentry => ?_
      have hentry' := hpositive entry hentry
      simp only [Option.getD_none, decide_eq_true_eq]
      omega
    rw [hall, behind]

/-- An empty page has no last entry to go on from. -/
theorem nextCursor_eq (hasMore : Bool) (examined : List AuditLogEntry) :
    (if hasMore = true ∧ 0 < examined.length then
        examined.getLast?.map fun entry => entry.sequence else none) =
      if hasMore = true then examined.getLast?.map (fun entry => entry.sequence) else none := by
  cases examined with
  | nil => simp
  | cons first others => simp

/-- A page of a retention run at a pinned instant. -/
theorem page_of_retention (hpositive : ∀ entry ∈ log, 0 < entry.sequence)
    (hnow : command.now = some now) {limit : ℕ}
    (hlimit : command.limit.getD (.finite DEFAULT_RETENTION_LIMIT) = .finite limit)
    (clock : Option ℤ → Date) (cursor : Option ℤ) :
    (ApplyAuditRetentionPolicy.execute log policy (clock cursor)
        { command with cursor := cursor }).toPage =
      pageOf (fun entry => entry.sequence) limit
        ((behind (fun entry => entry.sequence)
          (log.filter (retentionFilters policy now command.organizationId).pass) cursor).take
            (limit + 1)) := by
  rw [← pageOf_take, ← filter_from_eq_behind hpositive]
  have hentries : ∀ examined : List AuditLogEntry,
      (examined.map fun entry => (⟨entry, (now.time - entry.occurredAt.time) / MS_PER_DAY⟩ :
        RetentionCandidate)).map RetentionCandidate.entry = examined := by
    intro examined
    rw [List.map_map]
    exact List.map_id _
  simp only [RetentionReview.toPage, ApplyAuditRetentionPolicy.execute,
    InMemoryAuditLogRepository.findWithFilters, hlimit, hnow, Option.getD_some, hentries,
    nextCursor_eq, retentionFilters]
  rfl

variable (log policy command) in
/-- Following the cursors of a retention run lists all entries past retention. -/
def RetentionListsAll (now : Date) (clock : Option ℤ → Date) : Prop :=
  ListsAll (fun cursor => (ApplyAuditRetentionPolicy.execute log policy (clock cursor)
      { command with cursor := cursor }).toPage)
    (PastRetention log policy now command.organizationId)
    (command.limit.getD (.finite DEFAULT_RETENTION_LIMIT))

/-- A retention run at a pinned instant, with a limit of at least one, lists all entries past
retention. -/
theorem retentionListsAll (hlog : Ascending log) (hpositive : ∀ entry ∈ log, 0 < entry.sequence)
    (hnow : command.now = some now) {limit : ℕ} (hone : 1 ≤ limit)
    (hlimit : command.limit.getD (.finite DEFAULT_RETENTION_LIMIT) = .finite limit)
    (clock : Option ℤ → Date) : RetentionListsAll log policy command now clock := by
  have hitems : Ascending
      (log.filter (retentionFilters policy now command.organizationId).pass) :=
    hlog.sublist List.filter_sublist
  obtain ⟨pages, hfollows, hcomplete⟩ := exists_complete hone hitems
    (page_of_retention hpositive hnow hlimit clock)
  rw [RetentionListsAll, hlimit]
  exact listsAll_of_complete hitems (fun entry => mem_filter_pass_iff) hfollows hcomplete

end Retention

/-! ## Both listings -/

/-- For entries with distinct positive numbers, following the cursors of a query and of a retention
run lists every matching entry once, in order and on pages within the limit, unless the limit of the
query is no number and some entry matches. -/
theorem complete_paging_iff {stored : List (String × AuditLogEntry)} {log : List AuditLogEntry}
    (hdistinct : (stored.map fun filed => filed.2.sequence).Nodup)
    (hstored : ∀ filed ∈ stored, 0 < filed.2.sequence)
    (hlog : Ascending log) (hpositive : ∀ entry ∈ log, 0 < entry.sequence)
    {recordAuditEvent : RecordAuditEventCommand → Option AuditLogEntry}
    {query : QueryAuditEventsCommand}
    (haccess : (authorizeAndRecordAuditRead recordAuditEvent query.reader .query
      query.criteria).result = .ok ())
    (policy : RetentionPolicy) (clock : Option ℤ → Date) {retention : ApplyRetentionPolicyCommand}
    {now : Date} (hnow : retention.now = some now) {limit : ℕ} (hone : 1 ≤ limit)
    (hlimit : retention.limit.getD (.finite DEFAULT_RETENTION_LIMIT) = .finite limit) :
    (QueryListsAll stored recordAuditEvent query ∧
        RetentionListsAll log policy retention now clock) ↔
      (query.limit = some .nan → ∀ entry, ¬ Matches stored query.criteria entry) := by
  have hretention : RetentionListsAll log policy retention now clock :=
    retentionListsAll hlog hpositive hnow hone hlimit clock
  have hquery := queryListsAll_iff hdistinct hstored haccess
  exact ⟨fun h => hquery.mp h.1, fun h => ⟨hquery.mpr h, hretention⟩⟩

/-- A reader of the organization `o1`. -/
def sampleReader : AuditReader := ⟨"u9", "o1", ["audit:query"]⟩

/-- A query for everything of the organization. -/
def sampleQuery (limit : Option Number) : QueryAuditEventsCommand :=
  ⟨sampleReader, ⟨"o1", none, none, none, none⟩, none, limit⟩

/-- The sample chain, filed under the organization. -/
def sampleFiled : List (String × AuditLogEntry) := [("o1", sampleSecond), ("o1", sampleGenesis)]

/-- A review at the moment of the last sample entry. -/
def sampleReview : ApplyRetentionPolicyCommand :=
  ⟨some sampleTimeLater, none, some (.finite (1 : ℕ)), none⟩

/-- The sample chain is listed on pages of one entry. -/
theorem complete_paging_iff_sample :
    QueryListsAll sampleFiled (fun _ => some sampleGenesis)
        (sampleQuery (some (.finite (1 : ℕ)))) ∧
      RetentionListsAll [sampleGenesis, sampleSecond] DEFAULT_RETENTION_POLICY sampleReview
        sampleTimeLater fun _ => sampleTime :=
  (complete_paging_iff (by decide) (by decide) (by decide) (by decide) rfl
    DEFAULT_RETENTION_POLICY (fun _ => sampleTime) rfl le_rfl rfl).mpr fun hnan => nomatch hnan

/-- With `NaN` for a limit the sample chain is not listed. -/
theorem nan_limit_lists_nothing :
    ¬ QueryListsAll sampleFiled (fun _ => some sampleGenesis) (sampleQuery (some .nan)) := by
  rw [queryListsAll_iff (by decide) (by decide) rfl]
  intro hnone
  refine hnone rfl sampleGenesis ⟨by simp [sampleFiled, sampleQuery], ?_⟩
  simp [sampleQuery]

end Verixa
