import Verixa.Audit.VerifyWindow

/-!
# The range a verification reports

A verification reports the number and the stored hash of one entry as the end of the range it has
verified.  The walk keeps this entry in the variable that also seeds the next page: after a break it
is the last entry of the page with the break (`exists_previous_of_break`), and before the first
entry it is the one before the window (`previous_of_passed`).  So the report is about the last entry
that passed exactly when the window has no break, and has an entry or nothing before it.
-/

namespace Verixa

open InMemoryAuditLogRepository

variable {sha256 : String → String} {log : List AuditLogEntry}

/-! ## The entries that pass -/

section Passed

variable (sha256)

/-- The entries of a run that pass: those before the first that does not follow. -/
def passedEntries : Option AuditLogEntry → List AuditLogEntry → List AuditLogEntry
  | _, [] => []
  | previous, entry :: entries =>
    if verifyChainFrom sha256 previous [entry] = none then
      entry :: passedEntries (some entry) entries
    else []

end Passed

variable {previous : Option AuditLogEntry} {entries : List AuditLogEntry}

/-- An entry passes by itself when it follows. -/
theorem verifyChainFrom_singleton_eq_none_iff {entry : AuditLogEntry} :
    verifyChainFrom sha256 previous [entry] = none ↔ Follows sha256 previous entry := by
  rw [verifyChainFrom_cons_eq_none_iff]
  exact ⟨fun h => h.1, fun h => ⟨h, rfl⟩⟩

/-- All entries of an accepted run pass. -/
theorem passedEntries_of_passed (h : verifyChainFrom sha256 previous entries = none) :
    passedEntries sha256 previous entries = entries := by
  induction entries generalizing previous with
  | nil => rfl
  | cons entry entries ih =>
    obtain ⟨hfollows, hrest⟩ := verifyChainFrom_cons_eq_none_iff.mp h
    rw [passedEntries, if_pos (verifyChainFrom_singleton_eq_none_iff.mpr hfollows), ih hrest]

/-- In a run with a break, those that pass stand before it. -/
theorem sequence_lt_of_mem_passedEntries (hentries : Ascending entries) {chainBreak : ChainBreak}
    (h : verifyChainFrom sha256 previous entries = some chainBreak) {entry : AuditLogEntry}
    (hentry : entry ∈ passedEntries sha256 previous entries) :
    entry.sequence < chainBreak.sequence := by
  induction entries generalizing previous with
  | nil => cases h
  | cons first entries ih =>
    obtain ⟨hfirst, hrest⟩ := List.pairwise_cons.mp hentries
    rw [passedEntries] at hentry
    split at hentry
    · rename_i hpasses
      have hfollows := verifyChainFrom_singleton_eq_none_iff.mp hpasses
      rw [verifyChainFrom_cons_of_follows hfollows] at h
      rcases List.mem_cons.mp hentry with rfl | hlater
      · obtain ⟨broken, hbroken, hsequence⟩ := exists_mem_of_verifyChainFrom_eq_some h
        exact hsequence ▸ hfirst broken hbroken
      · exact ih hrest h hlater
    · cases hentry

/-! ## The entry a walk ends at -/

section Walk

variable {toSequence : Option ℤ} {batchSize : ℤ} {organizationId : Option String}
  {wantedSequences : List ℤ}

/-- Where a page ends, no entry of it is later. -/
theorem sequence_le_getLast {page : List AuditLogEntry} (hpage : Ascending page)
    {last entry : AuditLogEntry} (hlast : page.getLast? = some last) (hentry : entry ∈ page) :
    entry.sequence ≤ last.sequence := by
  obtain ⟨front, rfl⟩ := List.getLast?_eq_some_iff.mp hlast
  rcases List.mem_append.mp hentry with hfront | hend
  · exact ((List.pairwise_append.mp hpage).2.2 entry hfront last (by simp)).le
  · rw [List.mem_singleton.mp hend]

/-- A walk through a window that passes ends at the last entry of the window, or at the seed; one
that meets a break ends at the break or behind it. -/
theorem walkLoop_previous (hlog : Ascending log) (hbatch : 1 ≤ batchSize)
    (previous : Option AuditLogEntry) (cursor : ℤ) (tally : Tally)
    (hstart : ∀ first ∈ (entriesFrom log cursor).head?, Follows sha256 previous first →
      nextSequence previous = cursor) :
    match verifyChainFrom sha256 previous (selectedEntries log cursor toSequence) with
    | none =>
      (walkLoop sha256 log toSequence batchSize organizationId wantedSequences previous cursor
        tally).1 = (selectedEntries log cursor toSequence).getLast?.or previous
    | some chainBreak =>
      ∃ last, (walkLoop sha256 log toSequence batchSize organizationId wantedSequences previous
          cursor tally).1 = some last ∧ chainBreak.sequence ≤ last.sequence := by
  fun_induction walkLoop sha256 log toSequence batchSize organizationId wantedSequences previous
    cursor tally with
  | case1 previous cursor tally remaining hpassed =>
    rw [selectedEntries_eq_nil hpassed]
    rfl
  | case2 previous cursor tally remaining hleft limit hempty =>
    have hlimit := one_le_pageLimit hbatch hleft
    have hpage : (selectedEntries log cursor toSequence).take
        (pageLimit toSequence batchSize cursor).toNat = [] := by
      rw [← findFrom_pageLimit]
      exact List.getLast?_eq_none_iff.mp hempty
    have hnil : selectedEntries log cursor toSequence = [] :=
      (List.take_eq_nil_iff.mp hpage).resolve_left (by omega)
    rw [hnil]
    rfl
  | case3 previous cursor tally remaining hleft limit last hlast page firstBreak tally' hstop =>
    have hpage : page = (selectedEntries log cursor toSequence).take limit.toNat :=
      findFrom_pageLimit log toSequence batchSize cursor
    have hlast' : page.getLast? = some last := hlast
    have hsorted : Ascending page := by
      rw [hpage]
      exact (ascending_selectedEntries hlog cursor toSequence).sublist (List.take_sublist _ _)
    cases hbreak : firstBreak with
    | some chainBreak =>
      have hwhole : verifyChainFrom sha256 previous (selectedEntries log cursor toSequence) =
          some chainBreak := by
        rw [← List.take_append_drop limit.toNat (selectedEntries log cursor toSequence), ← hpage,
          verifyChainFrom_append, show verifyChainFrom sha256 previous page = _ from hbreak,
          Option.some_or]
      rw [hwhole]
      obtain ⟨broken, hbroken, hsequence⟩ := exists_mem_of_verifyChainFrom_eq_some
        (show verifyChainFrom sha256 previous page = some chainBreak from hbreak)
      exact ⟨last, rfl, hsequence ▸ sequence_le_getLast hsorted hlast' hbroken⟩
    | none =>
      have hshort : page.length < limit.toNat := by
        rcases hstop with hshort | hsome
        · exact hshort
        · simp [hbreak] at hsome
      have hall : selectedEntries log cursor toSequence = page := by
        rw [hpage] at hshort ⊢
        rw [List.length_take] at hshort
        rw [List.take_of_length_le (by omega)]
      rw [hall, show verifyChainFrom sha256 previous page = _ from hbreak, hlast']
      rfl
  | case4 previous cursor tally remaining hleft limit last hlast page firstBreak tally' hgo ih =>
    have hpage : page = (selectedEntries log cursor toSequence).take limit.toNat :=
      findFrom_pageLimit log toSequence batchSize cursor
    have hnone : verifyChainFrom sha256 previous page = none := by
      cases hbreak : firstBreak with
      | none => exact hbreak
      | some chainBreak => exact absurd (.inr (by simp [hbreak])) hgo
    obtain ⟨first, hfirst, hfollows⟩ := follows_of_page hnone hlast
    have hnext := hstart first hfirst hfollows
    have hlast' : page.getLast? = some last := hlast
    have hsplit : selectedEntries log cursor toSequence =
        page ++ selectedEntries log (last.sequence + 1) toSequence := by
      rw [hpage] at hnone hlast' ⊢
      exact selectedEntries_eq_append hlog hnone hlast' hnext
    have hrest : verifyChainFrom sha256 previous (selectedEntries log cursor toSequence) =
        verifyChainFrom sha256 (some last)
          (selectedEntries log (last.sequence + 1) toSequence) := by
      rw [hsplit, verifyChainFrom_append, hnone, Option.none_or, hlast', Option.some_or]
    have hend : (selectedEntries log cursor toSequence).getLast?.or previous =
        (selectedEntries log (last.sequence + 1) toSequence).getLast?.or (some last) := by
      rw [hsplit, List.getLast?_append, hlast', Option.or_assoc, Option.some_or]
    rw [hrest, hend]
    exact ih fun _ _ _ => rfl

end Walk

/-! ## The report -/

section Report

variable (sha256 log)

/-- The range a result reports is the one that passed: it ends at the last entry of the window that
passed, and there is no end when none did. -/
def ReportsVerifiedRange (command : VerifyAuditChainCommand) (result : VerifyAuditChainResult) :
    Prop :=
  let fromSequence := command.fromSequence.getD 1
  let passed := passedEntries sha256 (seedEntry log fromSequence)
    (selectedEntries log fromSequence command.toSequence)
  result.toSequence = passed.getLast?.map (fun entry => entry.sequence) ∧
    result.headHash = passed.getLast?.map fun entry => entry.hash

end Report

/-- The end of a report is the entry the walk ends at. -/
theorem end_of_execute (hlog : Ascending log) (anchorRecords : Option (ℕ → List AnchorRecord))
    (anchorVerifier : Option (String → String → Except AnchorFailure Bool))
    {command : VerifyAuditChainCommand} (hcommand : validateCommand command = none) :
    let seed := seedEntry log (command.fromSequence.getD 1)
    let selected := selectedEntries log (command.fromSequence.getD 1) command.toSequence
    ∃ result reported, VerifyAuditChain.execute sha256 log anchorRecords anchorVerifier command =
        .ok result ∧
      result.toSequence = reported.map (fun entry : AuditLogEntry => entry.sequence) ∧
      result.headHash = reported.map (fun entry : AuditLogEntry => entry.hash) ∧
      match verifyChainFrom sha256 seed selected with
      | none => reported = selected.getLast?.or seed
      | some chainBreak => ∃ last, reported = some last ∧ chainBreak.sequence ≤ last.sequence := by
  obtain ⟨hfrom, hbatch⟩ := bounds_of_validateCommand hcommand
  refine ⟨_, _, by rw [VerifyAuditChain.execute, hcommand], rfl, rfl, ?_⟩
  exact walkLoop_previous hlog hbatch _ _ _ fun first hfirst hfollows =>
    nextSequence_seedEntry hfrom hfirst hfollows

/-- The entry a walk ends at is the last that passed, or there is none and none passed, exactly when
the window has no break and has an entry or nothing before it. -/
theorem reported_eq_passed_iff {seed reported : Option AuditLogEntry}
    {selected : List AuditLogEntry} (hselected : Ascending selected)
    (hend : match verifyChainFrom sha256 seed selected with
      | none => reported = selected.getLast?.or seed
      | some chainBreak => ∃ last, reported = some last ∧ chainBreak.sequence ≤ last.sequence) :
    (reported.map (fun entry => entry.sequence) =
          (passedEntries sha256 seed selected).getLast?.map (fun entry => entry.sequence) ∧
        reported.map (fun entry => entry.hash) =
          (passedEntries sha256 seed selected).getLast?.map fun entry => entry.hash) ↔
      verifyChainFrom sha256 seed selected = none ∧ (selected = [] → seed = none) := by
  cases hbreak : verifyChainFrom sha256 seed selected with
  | none =>
    have hreported : reported = selected.getLast?.or seed := by
      simpa only [hbreak] using hend
    rw [hreported, passedEntries_of_passed hbreak]
    cases hlast : selected.getLast? with
    | none =>
      have hnil : selected = [] := List.getLast?_eq_none_iff.mp hlast
      cases hseed : seed with
      | none => simp
      | some entry => simp [hnil]
    | some last =>
      have hne : selected ≠ [] := by
        rintro rfl
        simp at hlast
      simp [hne]
  | some chainBreak =>
    obtain ⟨last, rfl, hbehind⟩ : ∃ last, reported = some last ∧
        chainBreak.sequence ≤ last.sequence := by
      simpa only [hbreak] using hend
    refine ⟨fun hreports => ?_, fun hnone => nomatch hnone.1⟩
    cases hpassed : (passedEntries sha256 seed selected).getLast? with
    | none => simp [hpassed] at hreports
    | some passed =>
      have hbefore := sequence_lt_of_mem_passedEntries hselected hbreak
        (List.mem_of_getLast? hpassed)
      have hsame : last.sequence = passed.sequence := by
        simpa [hpassed] using hreports.1
      omega

/-- The report of a verification that is not refused. -/
theorem exists_report (hlog : Ascending log) (anchorRecords : Option (ℕ → List AnchorRecord))
    (anchorVerifier : Option (String → String → Except AnchorFailure Bool))
    {command : VerifyAuditChainCommand} (hcommand : validateCommand command = none) :
    let seed := seedEntry log (command.fromSequence.getD 1)
    let selected := selectedEntries log (command.fromSequence.getD 1) command.toSequence
    ∃ result, VerifyAuditChain.execute sha256 log anchorRecords anchorVerifier command =
        .ok result ∧
      (ReportsVerifiedRange sha256 log command result ↔
        verifyChainFrom sha256 seed selected = none ∧ (selected = [] → seed = none)) := by
  obtain ⟨result, reported, hresult, hsequence, hhash, hend⟩ :=
    @end_of_execute sha256 log hlog anchorRecords anchorVerifier command hcommand
  refine ⟨result, hresult, ?_⟩
  rw [ReportsVerifiedRange, hsequence, hhash]
  exact reported_eq_passed_iff (ascending_selectedEntries hlog _ _) hend

/-- Whatever the batch size, the range a verification reports is the one that passed exactly when
the window has no break and, if it selects no entry, none stands before it. -/
theorem reports_verified_range_iff (hlog : Ascending log)
    (anchorRecords : Option (ℕ → List AnchorRecord))
    (anchorVerifier : Option (String → String → Except AnchorFailure Bool))
    {command : VerifyAuditChainCommand} (hfrom : 1 ≤ command.fromSequence.getD 1)
    (hto : ∀ toSequence ∈ command.toSequence, command.fromSequence.getD 1 ≤ toSequence)
    (hbatch : 1 ≤ command.batchSize.getD DEFAULT_VERIFY_BATCH_SIZE ∧
      command.batchSize.getD DEFAULT_VERIFY_BATCH_SIZE ≤ MAX_VERIFY_BATCH_SIZE) :
    let seed := seedEntry log (command.fromSequence.getD 1)
    let selected := selectedEntries log (command.fromSequence.getD 1) command.toSequence
    ∃ result, VerifyAuditChain.execute sha256 log anchorRecords anchorVerifier command =
        .ok result ∧
      (ReportsVerifiedRange sha256 log command result ↔
        verifyChainFrom sha256 seed selected = none ∧ (selected = [] → seed = none)) :=
  exists_report hlog anchorRecords anchorVerifier (validateCommand_eq_none hfrom hto hbatch)

/-- The sample chain passes, and the range reported ends with it. -/
theorem reports_verified_range_iff_sample :
    ∃ result, VerifyAuditChain.execute sampleSha256 [sampleGenesis, sampleSecond] none none
        samplePaged = .ok result ∧
      ReportsVerifiedRange sampleSha256 [sampleGenesis, sampleSecond] samplePaged result := by
  obtain ⟨result, hresult, hreports⟩ :=
    @reports_verified_range_iff sampleSha256 [sampleGenesis, sampleSecond] (by decide) none none
      samplePaged (by decide) (by simp [samplePaged]) (by decide)
  exact ⟨result, hresult, hreports.mpr (by decide +kernel)⟩

/-- The second entry of the sample chain, with another actor. -/
def sampleSecondAltered : AuditLogEntry := { sampleSecond with actorId := some "u2" }

/-- Behind the break at the second entry, only the first has passed, and the range reported ends
with the second. -/
theorem reports_range_past_break :
    ∃ result, VerifyAuditChain.execute sampleSha256 [sampleGenesis, sampleSecondAltered] none none
        samplePaged = .ok result ∧
      ¬ ReportsVerifiedRange sampleSha256 [sampleGenesis, sampleSecondAltered] samplePaged
        result := by
  obtain ⟨result, hresult, hreports⟩ :=
    @exists_report sampleSha256 [sampleGenesis, sampleSecondAltered] (by decide) none none
      samplePaged (by decide)
  refine ⟨result, hresult, fun hreported => ?_⟩
  have hnone := (hreports.mp hreported).1
  revert hnone
  decide +kernel

end Verixa
