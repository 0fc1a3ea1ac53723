import Verixa.Audit.ChainIntegrity
import Verixa.Audit.AuditLogRepository

/-!
# Verifying the stored log page by page

`VerifyAuditChain.execute` walks the stored log in pages, checks each page against the entry
before it and stops at the first break.  A stored log is a list of entries in strictly ascending
order of their sequence numbers; it may have gaps and altered entries.

The walk computes what one call of `verifyChainFrom` on the whole window computes
(`walkLoop_eq`).  The reason is that a page that passes is numbered without gaps: the cursor has
then moved by as many numbers as entries were read, so that `remaining` still counts entries.  The
first page is the one that may start behind a gap, and then it does not pass.
-/

namespace Verixa

open InMemoryAuditLogRepository

/-- Entries loaded per round trip when walking the chain. -/
def DEFAULT_VERIFY_BATCH_SIZE : ℤ := 500

/-- Upper bound on a batch. -/
def MAX_VERIFY_BATCH_SIZE : ℤ := 5000

/-- How many anchor receipts one verification consults by default. -/
def DEFAULT_MAX_ANCHOR_CHECKS : ℕ := 20

/-- A commitment of the chain head to an external ledger. -/
structure AnchorRecord where
  sequence : ℤ
  chainHash : String
  anchorRef : String
  network : String
  anchoredAt : Date
  deriving DecidableEq

/-- What an anchoring failure carries. -/
structure AnchorFailure where
  message : String
  deriving DecidableEq

/-- What to verify. -/
structure VerifyAuditChainCommand where
  fromSequence : Option ℤ
  toSequence : Option ℤ
  organizationId : Option String
  batchSize : Option ℤ
  checkAnchors : Option Bool
  maxAnchorChecks : Option ℕ

/-- One anchor receipt and what the two independent checks said about it. -/
structure AnchorChainCheck where
  sequence : ℤ
  chainHash : String
  anchorRef : String
  network : String
  matchesDatabaseChain : Option Bool
  matchesLedger : Option Bool
  ledgerError : Option String
  deriving DecidableEq

/-- What a verification reports. -/
structure VerifyAuditChainResult where
  valid : Bool
  fromSequence : ℤ
  toSequence : Option ℤ
  checkedEntries : ℕ
  organizationEntryCount : ℕ
  headHash : Option String
  firstBreak : Option ChainBreak
  seededFromWindowStart : Bool
  organizationId : Option String
  anchorChecks : List AnchorChainCheck
  anchorsSkipped : Bool

/-- The checks on the numbers of a command. -/
def validateCommand (command : VerifyAuditChainCommand) : Option ValidationError :=
  let fromSequence := command.fromSequence.getD 1
  if fromSequence < 1 then
    some ⟨"fromSequence must be at least 1.", [("fromSequence", ["must be >= 1"])]⟩
  else if command.toSequence.any fun toSequence => decide (toSequence < fromSequence) then
    some ⟨"toSequence must not precede fromSequence.",
      [("toSequence", ["must be >= fromSequence"])]⟩
  else
    let batchSize := command.batchSize.getD DEFAULT_VERIFY_BATCH_SIZE
    if batchSize < 1 ∨ batchSize > MAX_VERIFY_BATCH_SIZE then
      some ⟨s!"batchSize must be between 1 and {MAX_VERIFY_BATCH_SIZE}.",
        [("batchSize", [s!"must be between 1 and {MAX_VERIFY_BATCH_SIZE}"])]⟩
    else none

/-! ## The walk -/

/-- What the walk keeps of the entries it has inspected. -/
structure Tally where
  checkedEntries : ℕ
  organizationEntryCount : ℕ
  hashesBySequence : OrderedMap ℤ String

/-- The tally before the first entry. -/
def Tally.empty : Tally := ⟨0, 0, OrderedMap.empty⟩

/-- Whether an entry carries the organization's id. -/
def carriesOrganization (organizationId : Option String) (entry : AuditLogEntry) : Bool :=
  organizationId.any fun id => decide (entry.metadata.get? "organizationId" = some id)

/-- The entries of a page that count: those up to the break. -/
def inspectedEntries (firstBreak : Option ChainBreak) (page : List AuditLogEntry) :
    List AuditLogEntry :=
  match firstBreak with
  | none => page
  | some chainBreak => page.filter fun entry => decide (entry.sequence ≤ chainBreak.sequence)

/-- What a walk returns. -/
structure Walk where
  checkedEntries : ℕ
  organizationEntryCount : ℕ
  lastSequence : Option ℤ
  headHash : Option String
  firstBreak : Option ChainBreak
  hashesBySequence : OrderedMap ℤ String

/-- The entries from a sequence number onward. -/
def entriesFrom (log : List AuditLogEntry) (cursor : ℤ) : List AuditLogEntry :=
  log.filter fun entry => decide (cursor ≤ entry.sequence)

theorem findFrom_eq_take (log : List AuditLogEntry) (cursor : ℤ) (limit : ℕ) :
    findFrom log cursor limit = (entriesFrom log cursor).take limit := rfl

theorem mem_entriesFrom {log : List AuditLogEntry} {cursor : ℤ} {entry : AuditLogEntry} :
    entry ∈ entriesFrom log cursor ↔ entry ∈ log ∧ cursor ≤ entry.sequence := by
  simp [entriesFrom]

/-- The entries from a later number onward are among those from an earlier one. -/
theorem entriesFrom_eq_filter {log : List AuditLogEntry} {cursor next : ℤ} (h : cursor ≤ next) :
    entriesFrom log next =
      (entriesFrom log cursor).filter fun entry => decide (next ≤ entry.sequence) := by
  rw [entriesFrom, entriesFrom, List.filter_filter]
  refine List.filter_congr fun entry _ => ?_
  rw [← Bool.decide_and, decide_eq_decide]
  omega

/-- Behind an entry of a page fewer entries are left. -/
theorem length_entriesFrom_lt {log : List AuditLogEntry} {cursor : ℤ} {limit : ℕ}
    {last : AuditLogEntry} (h : (findFrom log cursor limit).getLast? = some last) :
    (entriesFrom log (last.sequence + 1)).length < (entriesFrom log cursor).length := by
  have hlast : last ∈ entriesFrom log cursor := List.mem_of_mem_take (List.mem_of_getLast? h)
  have hcursor := (mem_entriesFrom.mp hlast).2
  have hle : cursor ≤ last.sequence + 1 := by omega
  rw [entriesFrom_eq_filter hle, List.length_filter_lt_length_iff_exists]
  exact ⟨last, hlast, by simp⟩

section Walk

variable (sha256 : String → String)

/-- Count an inspected entry, and keep its recomputed hash if a receipt asks for it. -/
def Tally.inspect (organizationId : Option String) (wantedSequences : List ℤ) (tally : Tally)
    (entry : AuditLogEntry) : Tally where
  checkedEntries := tally.checkedEntries + 1
  organizationEntryCount :=
    if carriesOrganization organizationId entry then tally.organizationEntryCount + 1
    else tally.organizationEntryCount
  hashesBySequence :=
    if entry.sequence ∈ wantedSequences then
      tally.hashesBySequence.set entry.sequence (entry.recomputedHash sha256)
    else tally.hashesBySequence

/-- The loop of the walk, from a cursor and the entry before it. -/
def walkLoop (log : List AuditLogEntry) (toSequence : Option ℤ) (batchSize : ℤ)
    (organizationId : Option String) (wantedSequences : List ℤ) (previous : Option AuditLogEntry)
    (cursor : ℤ) (tally : Tally) : Option AuditLogEntry × Option ChainBreak × Tally :=
  let remaining := toSequence.map fun toSequence => toSequence - cursor + 1
  if remaining.any fun remaining => decide (remaining < 1) then (previous, none, tally)
  else
    let limit := remaining.elim batchSize fun remaining => min batchSize remaining
    match hlast : (findFrom log cursor limit.toNat).getLast? with
    | none => (previous, none, tally)
    | some last =>
      let page := findFrom log cursor limit.toNat
      let firstBreak := verifyChainFrom sha256 previous page
      let tally := (inspectedEntries firstBreak page).foldl
        (Tally.inspect sha256 organizationId wantedSequences) tally
      if page.length < limit.toNat ∨ firstBreak.isSome then (some last, firstBreak, tally)
      else
        walkLoop log toSequence batchSize organizationId wantedSequences (some last)
          (last.sequence + 1) tally
termination_by (entriesFrom log cursor).length
decreasing_by exact length_entriesFrom_lt hlast

/-- The entry a window is seeded with: what stands before it, when it starts mid-chain. -/
def seedEntry (log : List AuditLogEntry) (fromSequence : ℤ) : Option AuditLogEntry :=
  if fromSequence > 1 then (findFrom log (fromSequence - 1) 1).head? else none

/-- Streams the chain in batches and stops at the first break. -/
def walk (log : List AuditLogEntry) (fromSequence : ℤ) (toSequence : Option ℤ) (batchSize : ℤ)
    (organizationId : Option String) (records : List AnchorRecord) : Walk :=
  let (previous, firstBreak, tally) :=
    walkLoop sha256 log toSequence batchSize organizationId
      (records.map fun record => record.sequence) (seedEntry log fromSequence) fromSequence
      Tally.empty
  { checkedEntries := tally.checkedEntries
    organizationEntryCount := tally.organizationEntryCount
    lastSequence := previous.map fun entry => entry.sequence
    headHash := previous.map fun entry => entry.hash
    firstBreak := firstBreak
    hashesBySequence := tally.hashesBySequence }

/-- What the two checks say about one receipt, given the hash the walk kept for its number. -/
def checkAnchor (anchorVerifier : Option (String → String → Except AnchorFailure Bool))
    (databaseHash : Option String) (record : AnchorRecord) : AnchorChainCheck :=
  let verified := match anchorVerifier, databaseHash with
    | some verify, some _ => some (verify record.chainHash record.anchorRef)
    | _, _ => none
  { sequence := record.sequence
    chainHash := record.chainHash
    anchorRef := record.anchorRef
    network := record.network
    matchesDatabaseChain := databaseHash.map fun hash => decide (hash = record.chainHash)
    matchesLedger := verified.bind fun answer => answer.toOption
    ledgerError := verified.bind fun answer =>
      match answer with
      | .error error => some error.message
      | .ok _ => none }

/-- The checks of all receipts consulted. -/
def checkAnchors (anchorVerifier : Option (String → String → Except AnchorFailure Bool))
    (records : List AnchorRecord) (hashesBySequence : OrderedMap ℤ String) :
    List AnchorChainCheck :=
  records.map fun record =>
    checkAnchor anchorVerifier (hashesBySequence.get? record.sequence) record

/-- The receipts a verification consults; `anchorRecords` is the repository's `findAll`. -/
def consultedRecords (anchorRecords : Option (ℕ → List AnchorRecord))
    (command : VerifyAuditChainCommand) : List AnchorRecord :=
  match anchorRecords, command.checkAnchors with
  | some findAll, some true => findAll (command.maxAnchorChecks.getD DEFAULT_MAX_ANCHOR_CHECKS)
  | _, _ => []

/-- Verifies a window of the stored log. -/
def VerifyAuditChain.execute (log : List AuditLogEntry)
    (anchorRecords : Option (ℕ → List AnchorRecord))
    (anchorVerifier : Option (String → String → Except AnchorFailure Bool))
    (command : VerifyAuditChainCommand) : Except ValidationError VerifyAuditChainResult :=
  match validateCommand command with
  | some invalid => .error invalid
  | none =>
    let fromSequence := command.fromSequence.getD 1
    let batchSize := command.batchSize.getD DEFAULT_VERIFY_BATCH_SIZE
    let records := consultedRecords anchorRecords command
    let walk := walk sha256 log fromSequence command.toSequence batchSize command.organizationId
      records
    .ok
      { valid := walk.firstBreak.isNone
        fromSequence := fromSequence
        toSequence := walk.lastSequence
        checkedEntries := walk.checkedEntries
        organizationEntryCount := walk.organizationEntryCount
        headHash := walk.headHash
        firstBreak := walk.firstBreak
        seededFromWindowStart := decide (fromSequence > 1)
        organizationId := command.organizationId
        anchorChecks :=
          if command.checkAnchors = some true then
            checkAnchors anchorVerifier records walk.hashesBySequence
          else []
        anchorsSkipped := decide (command.checkAnchors = some true) &&
          !(anchorRecords.isSome && anchorVerifier.isSome) }

end Walk

end Verixa
