import Verixa.Audit.VerifyWindow

/-!
# Anchoring the head of the log

`AnchorAuditLog.execute` commits the stored hash of the last entry to an external ledger and keeps
a receipt.  A later verification of the whole log that consults the receipt and finds it matching
has recomputed, at the receipt's sequence number, the hash that was anchored; since the last hash
commits to the whole chain, the entries up to there hold the evidence they held then
(`evidence_kept`).

This needs that the log was a verified chain when it was anchored: anchoring does not check it.
And it is about evidence: the row ids are not hashed, an absent id reads as an empty one, and rows
numbered below one are not read (`anchored_rows_can_differ`).  A log that has been cut short is
reported by a check without an answer from the database.
-/

namespace Verixa

/-- The receipt an anchoring ledger hands out. -/
structure AnchorReceiptLike where
  hash : String
  anchorRef : String
  anchoredAt : Date
  network : String

/-- What anchoring returns. -/
structure AnchorAuditLogResult where
  record : AnchorRecord
  newlyCovered : ℤ

/-- Why anchoring did not take place. -/
inductive AnchorAuditLogError where
  | validation (error : ValidationError)
  | anchor (error : AnchorFailure)

namespace InMemoryAnchorRecordRepository

/-- The receipt saved last. -/
def findLatest (records : List AnchorRecord) : Option AnchorRecord := records.getLast?

/-- The receipts saved last, newest first. -/
def findAll (records : List AnchorRecord) (limit : ℕ) : List AnchorRecord :=
  records.reverse.take limit

end InMemoryAnchorRecordRepository

/-- Commits the current head hash to the ledger; the receipts saved so far go in, and with the new
one come out.  `hashAnchor` is what the ledger answers. -/
def AnchorAuditLog.execute (log : List AuditLogEntry) (records : List AnchorRecord)
    (hashAnchor : String → Except AnchorFailure AnchorReceiptLike) :
    Except AnchorAuditLogError AnchorAuditLogResult × List AnchorRecord :=
  match InMemoryAuditLogRepository.findLatest log with
  | none =>
    (.error (.validation ⟨"There is nothing to anchor: the audit log is empty.",
      [("auditLog", ["empty"])]⟩), records)
  | some head =>
    let previous := InMemoryAnchorRecordRepository.findLatest records
    if previous.any fun previous => previous.chainHash == head.hash then
      (.error (.validation ⟨"The current chain head is already anchored.",
        [("auditLog", ["already_anchored"])]⟩), records)
    else match hashAnchor head.hash with
      | .error error => (.error (.anchor error), records)
      | .ok receipt =>
        let record : AnchorRecord :=
          { sequence := head.sequence
            chainHash := head.hash
            anchorRef := receipt.anchorRef
            network := receipt.network
            anchoredAt := receipt.anchoredAt }
        (.ok ⟨record, head.sequence - (previous.elim 0 fun previous => previous.sequence)⟩,
          records ++ [record])

/-- A recorded receipt names the head of the log and its stored hash. -/
theorem head_of_anchored {log : List AuditLogEntry} {records : List AnchorRecord}
    {hashAnchor : String → Except AnchorFailure AnchorReceiptLike} {anchored : AnchorAuditLogResult}
    (h : (AnchorAuditLog.execute log records hashAnchor).1 = .ok anchored) :
    ∃ head, log.getLast? = some head ∧ anchored.record.sequence = head.sequence ∧
      anchored.record.chainHash = head.hash := by
  unfold AnchorAuditLog.execute at h
  split at h
  · cases h
  · rename_i head hhead
    dsimp only at h
    split at h
    · cases h
    · split at h
      · cases h
      · cases h
        exact ⟨head, hhead, rfl, rfl⟩

/-! ## Entries of a verified log up to a number -/

variable {sha256 : String → String}

/-- The entries numbered from one up to `sequence`. -/
def entriesUpTo (log : List AuditLogEntry) (sequence : ℤ) : List AuditLogEntry :=
  log.filter fun entry => decide (1 ≤ entry.sequence ∧ entry.sequence ≤ sequence)

/-- In a verified chain the entries up to a number are the beginning of that length. -/
theorem filter_le_eq_take {entries : List AuditLogEntry} {previous : Option AuditLogEntry}
    (h : verifyChainFrom sha256 previous entries = none) (n : ℕ) :
    (entries.filter fun e => decide (e.sequence ≤ nextSequence previous - 1 + n)) =
      entries.take n := by
  induction entries generalizing previous n with
  | nil => simp
  | cons entry entries ih =>
    obtain ⟨hfollows, hrest⟩ := verifyChainFrom_cons_eq_none_iff.mp h
    have hnumber := hfollows.numbered
    have hnext : nextSequence (some entry) = nextSequence previous + 1 := by
      rw [← hnumber]
      rfl
    cases n with
    | zero =>
      refine List.filter_eq_nil_iff.mpr fun e he => ?_
      obtain ⟨i, hi, rfl⟩ := List.mem_iff_getElem.mp he
      rw [sequence_getElem h i hi]
      simp only [decide_eq_true_eq]
      omega
    | succ n =>
      rw [List.take_succ_cons, List.filter_cons_of_pos (by simp only [decide_eq_true_eq]; omega)]
      congr 1
      rw [← ih hrest n]
      refine List.filter_congr fun e _ => ?_
      rw [decide_eq_decide, hnext]
      omega

/-- The entries up to a number, among those a verification of everything reads. -/
theorem entriesUpTo_eq_take {log : List AuditLogEntry}
    (h : verifyChain sha256 (entriesFrom log 1) = none) (n : ℕ) :
    entriesUpTo log n = (entriesFrom log 1).take n := by
  rw [← filter_le_eq_take h, entriesUpTo, entriesFrom, List.filter_filter]
  refine List.filter_congr fun e _ => ?_
  rw [← Bool.decide_and, decide_eq_decide]
  simp only [nextSequence]
  omega

/-- Every entry of an accepted run has a valid hash. -/
theorem validHash_of_mem {previous : Option AuditLogEntry} {entries : List AuditLogEntry}
    (h : verifyChainFrom sha256 previous entries = none) {entry : AuditLogEntry}
    (hentry : entry ∈ entries) : entry.hash = entry.recomputedHash sha256 := by
  induction entries generalizing previous with
  | nil => simp at hentry
  | cons e entries ih =>
    obtain ⟨hfollows, hrest⟩ := verifyChainFrom_cons_eq_none_iff.mp h
    rcases List.mem_cons.mp hentry with rfl | hentry
    · exact hfollows.validHash
    · exact ih hrest hentry

/-- A verified log that holds, under the number of an earlier head, an entry with the hash of that
head holds the evidence of the log that ended there. -/
theorem sameEvidence_entriesUpTo (hsha : InjectiveOnCanonical sha256)
    {log stored : List AuditLogEntry} {head entry : AuditLogEntry}
    (hlog : verifyChain sha256 log = none) (hhead : log.getLast? = some head)
    (hstored : verifyChain sha256 (entriesFrom stored 1) = none)
    (hentry : entry ∈ entriesFrom stored 1) (hsequence : entry.sequence = head.sequence)
    (hhash : entry.hash = head.hash) : SameEvidence (entriesUpTo stored head.sequence) log := by
  have hlength := sequence_getLast hlog hhead
  obtain ⟨i, hi, rfl⟩ := List.mem_iff_getElem.mp hentry
  have hindex : i + 1 = log.length := by
    have hnumber := sequence_getElem hstored i hi
    rw [hsequence, hlength, nextSequence] at hnumber
    omega
  rw [hlength, entriesUpTo_eq_take hstored]
  have hsplit : (entriesFrom stored 1).take log.length =
      (entriesFrom stored 1).take i ++ [(entriesFrom stored 1)[i]] := by
    rw [← hindex, List.take_succ_eq_append_getElem hi]
  have hprefix : verifyChain sha256 ((entriesFrom stored 1).take log.length) = none := by
    rw [← List.take_append_drop log.length (entriesFrom stored 1)] at hstored
    exact (verifyChainFrom_eq_none_of_append hstored).1
  refine forall₂_agree_of_headHash_eq hsha hprefix hlog ?_ ?_
  · rw [List.length_take]
    omega
  · rw [hsplit, List.getLast?_concat, hhead]
    exact hhash

/-! ## What a matching receipt proves -/

/-- A check that does not confirm its receipt: the database or the ledger disagrees, or the
database gives no answer. -/
def AnchorChainCheck.fails (check : AnchorChainCheck) : Bool :=
  decide (check.matchesDatabaseChain ≠ some true) || decide (check.matchesLedger = some false)

/-- The command is for the whole log, with the receipts. -/
structure ChecksWholeLog (command : VerifyAuditChainCommand) : Prop where
  fromSequence : command.fromSequence = none
  toSequence : command.toSequence = none
  checkAnchors : command.checkAnchors = some true

/-- What the run of such a command says: whether what it read is a verified chain, and for each
receipt consulted how the entry under its number compares. -/
theorem verdict_of_checksWholeLog {stored : List AuditLogEntry} (hstored : Ascending stored)
    {anchorRecords : Option (ℕ → List AnchorRecord)}
    {anchorVerifier : Option (String → String → Except AnchorFailure Bool)}
    {command : VerifyAuditChainCommand} (hcommand : ChecksWholeLog command)
    {result : VerifyAuditChainResult}
    (hresult : VerifyAuditChain.execute sha256 stored anchorRecords anchorVerifier command =
      .ok result) :
    (result.valid = true → verifyChain sha256 (entriesFrom stored 1) = none) ∧
      ∀ record ∈ consultedRecords anchorRecords command,
        checkAnchor anchorVerifier
          (((windowInspected sha256 stored 1 none).find?
            fun entry => decide (entry.sequence = record.sequence)).map
              fun entry => entry.recomputedHash sha256) record ∈ result.anchorChecks := by
  have hvalidated : validateCommand command = none := by
    cases hvalidate : validateCommand command with
    | none => rfl
    | some invalid =>
      rw [VerifyAuditChain.execute, hvalidate] at hresult
      cases hresult
  obtain ⟨result', hresult', hvalid, hchecks⟩ :=
    @verdict_of_execute sha256 stored hstored anchorRecords anchorVerifier command hvalidated
      hcommand.checkAnchors
  obtain rfl : result' = result := Except.ok.inj (hresult'.symm.trans hresult)
  rw [hcommand.fromSequence, hcommand.toSequence, Option.getD_none] at hvalid hchecks
  refine ⟨fun hpassed => ?_, fun record hrecord => ?_⟩
  · rw [hpassed] at hvalid
    exact Option.isNone_iff_eq_none.mp hvalid.symm
  · rw [hchecks]
    exact List.mem_map.mpr ⟨record, hrecord, rfl⟩

/-- A check that does not fail has found an entry with the hash of the receipt. -/
theorem exists_mem_of_fails_eq_false {entries : List AuditLogEntry} {record : AnchorRecord}
    {anchorVerifier : Option (String → String → Except AnchorFailure Bool)}
    (h : (checkAnchor anchorVerifier
      ((entries.find? fun entry => decide (entry.sequence = record.sequence)).map
        fun entry => entry.recomputedHash sha256) record).fails = false) :
    ∃ entry ∈ entries, entry.sequence = record.sequence ∧
      entry.recomputedHash sha256 = record.chainHash := by
  have hmatch := (Bool.or_eq_false_iff.mp h).1
  cases hfind : entries.find? fun entry => decide (entry.sequence = record.sequence) with
  | none => simp [hfind, checkAnchor] at hmatch
  | some entry =>
    have hsequence : entry.sequence = record.sequence := by simpa using List.find?_some hfind
    refine ⟨entry, List.mem_of_find?_eq_some hfind, hsequence, ?_⟩
    simpa [hfind, checkAnchor] using hmatch

/-- The ledger of the samples accepts everything. -/
def sampleLedger (hash : String) : Except AnchorFailure AnchorReceiptLike :=
  .ok ⟨hash, "tx1", sampleTimeLater, "testnet"⟩

/-- The receipt for the sample chain. -/
def sampleAnchored : AnchorAuditLogResult :=
  ⟨⟨2, sampleSecond.hash, "tx1", "testnet", sampleTimeLater⟩, 2⟩

/-- The ledger confirms that receipt. -/
def sampleVerifier (hash anchorRef : String) : Except AnchorFailure Bool :=
  .ok (decide (hash = sampleSecond.hash ∧ anchorRef = "tx1"))

/-- Verification of everything, with the receipts. -/
def sampleCheck : VerifyAuditChainCommand := ⟨none, none, none, none, some true, none⟩

/-- The run over `stored` that consults the sample receipt is valid, and no check fails. -/
def PassesSampleCheck (stored : List AuditLogEntry) : Prop :=
  ∃ result, VerifyAuditChain.execute sampleSha256 stored
      (some (InMemoryAnchorRecordRepository.findAll [sampleAnchored.record])) (some sampleVerifier)
      sampleCheck = .ok result ∧
    result.valid = true ∧ result.anchorChecks.length = 1 ∧
    ∀ check ∈ result.anchorChecks, check.fails = false

/-- The first sample entry with its content altered and its hash left alone. -/
def sampleTampered : AuditLogEntry := { sampleGenesis with metadata := OrderedMap.empty }

/-- The sample chain with a row in front of it that is not read and a row id changed. -/
def sampleRewritten : List AuditLogEntry :=
  [{ sampleSecond with sequence := 0 }, { sampleGenesis with id := "b1" }, sampleSecond]

/-- The sample receipt is confirmed when the whole log is a verified chain that holds it. -/
theorem passesSampleCheck {stored : List AuditLogEntry} (hstored : Ascending stored)
    (hbreak : windowBreak sampleSha256 stored 1 none = none)
    (hfails : (checkAnchor (some sampleVerifier)
      (((windowInspected sampleSha256 stored 1 none).find?
        fun entry => decide (entry.sequence = sampleAnchored.record.sequence)).map
          fun entry => entry.recomputedHash sampleSha256) sampleAnchored.record).fails = false) :
    PassesSampleCheck stored := by
  obtain ⟨result, hresult, hvalid, hchecks⟩ :=
    @verdict_of_execute sampleSha256 stored hstored
      (some (InMemoryAnchorRecordRepository.findAll [sampleAnchored.record]))
      (some sampleVerifier) sampleCheck (by decide) rfl
  have hconsulted : consultedRecords
      (some (InMemoryAnchorRecordRepository.findAll [sampleAnchored.record])) sampleCheck =
        [sampleAnchored.record] := rfl
  rw [hconsulted, List.map_singleton] at hchecks
  refine ⟨result, hresult, ?_, ?_, ?_⟩
  · rw [hvalid]
    exact congrArg Option.isNone hbreak
  · rw [hchecks]
    rfl
  · rw [hchecks]
    intro check hcheck
    rw [List.mem_singleton.mp hcheck]
    exact hfails

/-- A log that was altered before it was anchored passes once the alteration is undone, and an
intact log passes with other row ids and rows numbered below one. -/
theorem anchored_rows_can_differ :
    ((AnchorAuditLog.execute [sampleTampered, sampleSecond] [] sampleLedger).1 =
        .ok sampleAnchored ∧
      PassesSampleCheck [sampleGenesis, sampleSecond] ∧
      ¬ SameEvidence [sampleGenesis, sampleSecond] [sampleTampered, sampleSecond]) ∧
    ((AnchorAuditLog.execute [sampleGenesis, sampleSecond] [] sampleLedger).1 =
        .ok sampleAnchored ∧
      PassesSampleCheck sampleRewritten ∧
      (sampleRewritten.filter fun entry => decide (entry.sequence ≤ 2)) ≠
        [sampleGenesis, sampleSecond] ∧
      entriesUpTo sampleRewritten 2 ≠ [sampleGenesis, sampleSecond]) := by
  refine ⟨⟨rfl, passesSampleCheck (by decide) (by decide +kernel) (by decide +kernel), ?_⟩,
    ⟨rfl, passesSampleCheck (by decide) (by decide +kernel) (by decide +kernel), by decide,
      by decide⟩⟩
  intro hsame
  cases hsame with
  | cons hagree _ =>
    have hsource := hagree.metadata "source"
    revert hsource
    decide

/-- A verified log was anchored, and later the stored log, rewritten in any way, is verified as a
whole with that receipt among those consulted.  If the run is valid and no check fails, the stored
entries up to the receipt's number hold the evidence of the anchored log; and if the stored log no
longer reaches that number, the check of the receipt has no answer from the database. -/
theorem evidence_kept (hsha : InjectiveOnCanonical sha256) {log stored : List AuditLogEntry}
    (hlog : verifyChain sha256 log = none) {records : List AnchorRecord}
    {hashAnchor : String → Except AnchorFailure AnchorReceiptLike}
    {anchored : AnchorAuditLogResult}
    (hanchored : (AnchorAuditLog.execute log records hashAnchor).1 = .ok anchored)
    (hstored : Ascending stored) {anchorRecords : Option (ℕ → List AnchorRecord)}
    {anchorVerifier : Option (String → String → Except AnchorFailure Bool)}
    {command : VerifyAuditChainCommand} (hcommand : ChecksWholeLog command)
    (hconsulted : anchored.record ∈ consultedRecords anchorRecords command)
    {result : VerifyAuditChainResult}
    (hresult : VerifyAuditChain.execute sha256 stored anchorRecords anchorVerifier command =
      .ok result) :
    (result.valid = true → (∀ check ∈ result.anchorChecks, check.fails = false) →
      SameEvidence (entriesUpTo stored anchored.record.sequence) log) ∧
    ((∀ entry ∈ stored, entry.sequence < anchored.record.sequence) →
      ∃ check ∈ result.anchorChecks, check.sequence = anchored.record.sequence ∧
        check.chainHash = anchored.record.chainHash ∧ check.matchesDatabaseChain = none ∧
        check.fails = true) := by
  obtain ⟨hvalid, hchecks⟩ := verdict_of_checksWholeLog hstored hcommand hresult
  have hcheck := hchecks anchored.record hconsulted
  constructor
  · intro hpassed hnone
    obtain ⟨head, hhead, hsequence, hhash⟩ := head_of_anchored hanchored
    have hchain := hvalid hpassed
    have hinspected : windowInspected sha256 stored 1 none = entriesFrom stored 1 := by
      have hbreak : windowBreak sha256 stored 1 none = none := hchain
      rw [windowInspected, hbreak]
      rfl
    rw [hinspected] at hcheck
    obtain ⟨entry, hentry, hnumber, hrecomputed⟩ :=
      exists_mem_of_fails_eq_false (hnone _ hcheck)
    have hentryHash : entry.hash = head.hash :=
      (validHash_of_mem hchain hentry).trans (hrecomputed.trans hhash)
    rw [hsequence]
    exact sameEvidence_entriesUpTo hsha hlog hhead hchain hentry (hnumber.trans hsequence)
      hentryHash
  · intro hshort
    have hfind : (windowInspected sha256 stored 1 none).find?
        (fun entry => decide (entry.sequence = anchored.record.sequence)) = none := by
      refine List.find?_eq_none.mpr fun entry hentry => ?_
      have hlt := hshort entry (mem_of_mem_windowInspected hentry)
      simp only [decide_eq_true_eq]
      omega
    rw [hfind] at hcheck
    exact ⟨_, hcheck, rfl, rfl, rfl, rfl⟩

/-- The sample chain, anchored and kept, passes with its evidence. -/
theorem evidence_kept_sample :
    SameEvidence (entriesUpTo [sampleGenesis, sampleSecond] 2) [sampleGenesis, sampleSecond] := by
  obtain ⟨result, hresult, hvalid, -, hnone⟩ :=
    @passesSampleCheck [sampleGenesis, sampleSecond] (by decide) (by decide +kernel)
      (by decide +kernel)
  have hanchored : (AnchorAuditLog.execute [sampleGenesis, sampleSecond] [] sampleLedger).1 =
      .ok sampleAnchored := rfl
  have hcommand : ChecksWholeLog sampleCheck := ⟨rfl, rfl, rfl⟩
  have hconsulted : sampleAnchored.record ∈ consultedRecords
      (some (InMemoryAnchorRecordRepository.findAll [sampleAnchored.record])) sampleCheck :=
    List.mem_singleton.mpr rfl
  exact (evidence_kept injectiveOnCanonical_sampleSha256 verifyChain_sample hanchored (by decide)
    hcommand hconsulted hresult).1 hvalid hnone

end Verixa
