import Verixa.Audit.VerifyAuditChain

/-!
# The verdict does not depend on the batch size

`selectedEntries` is what a window selects of a stored log and `seedEntry` what stands before it.
Whatever the batch size, the walk reports the break that one call of `verifyChainFrom` on the
selected entries reports, and has inspected exactly the entries up to it (`walkLoop_eq`).  The
counts and the answers about receipts follow.
-/

namespace Verixa

open InMemoryAuditLogRepository

/-- A stored log: sequence numbers ascend strictly. -/
def Ascending (log : List AuditLogEntry) : Prop :=
  log.Pairwise fun x y => x.sequence < y.sequence

instance (log : List AuditLogEntry) : Decidable (Ascending log) :=
  inferInstanceAs (Decidable (List.Pairwise _ _))

/-- The entries a window selects: the first `toSequence - fromSequence + 1` from `fromSequence`
onward. -/
def selectedEntries (log : List AuditLogEntry) (fromSequence : ℤ) (toSequence : Option ℤ) :
    List AuditLogEntry :=
  match toSequence with
  | none => entriesFrom log fromSequence
  | some toSequence => (entriesFrom log fromSequence).take (toSequence - fromSequence + 1).toNat

variable {sha256 : String → String} {log : List AuditLogEntry}

/-! ## Breaks and inspected entries -/

/-- A break is at an entry of the run. -/
theorem exists_mem_of_verifyChainFrom_eq_some {previous : Option AuditLogEntry}
    {entries : List AuditLogEntry} {chainBreak : ChainBreak}
    (h : verifyChainFrom sha256 previous entries = some chainBreak) :
    ∃ entry ∈ entries, entry.sequence = chainBreak.sequence := by
  induction entries generalizing previous with
  | nil => cases h
  | cons entry entries ih =>
    by_cases hfollows : Follows sha256 previous entry
    · rw [verifyChainFrom_cons_of_follows hfollows] at h
      obtain ⟨e, he, hseq⟩ := ih h
      exact ⟨e, List.mem_cons_of_mem _ he, hseq⟩
    · obtain ⟨reason, hbreak⟩ := verifyChainFrom_cons_of_not_follows hfollows
      rw [hbreak] at h
      cases h
      exact ⟨entry, List.mem_cons_self, rfl⟩

/-- What stands behind a page with a break is not inspected. -/
theorem inspectedEntries_append_of_break {previous : Option AuditLogEntry}
    {page more : List AuditLogEntry} {chainBreak : ChainBreak}
    (hsorted : Ascending (page ++ more))
    (h : verifyChainFrom sha256 previous page = some chainBreak) :
    inspectedEntries (some chainBreak) (page ++ more) =
      inspectedEntries (some chainBreak) page := by
  obtain ⟨entry, hentry, hseq⟩ := exists_mem_of_verifyChainFrom_eq_some h
  have hmore : more.filter (fun e => decide (e.sequence ≤ chainBreak.sequence)) = [] := by
    refine List.filter_eq_nil_iff.mpr fun e he => ?_
    have hlt := (List.pairwise_append.mp hsorted).2.2 entry hentry e he
    simp only [decide_eq_true_eq]
    omega
  simp only [inspectedEntries, List.filter_append, hmore, List.append_nil]

/-- A page without a break is inspected as a whole. -/
theorem inspectedEntries_append_of_none {previous : Option AuditLogEntry}
    {page more : List AuditLogEntry} (hsorted : Ascending (page ++ more)) :
    inspectedEntries (verifyChainFrom sha256 previous more) (page ++ more) =
      page ++ inspectedEntries (verifyChainFrom sha256 previous more) more := by
  cases h : verifyChainFrom sha256 previous more with
  | none => rfl
  | some chainBreak =>
    obtain ⟨entry, hentry, hseq⟩ := exists_mem_of_verifyChainFrom_eq_some h
    have hpage : page.filter (fun e => decide (e.sequence ≤ chainBreak.sequence)) = page := by
      refine List.filter_eq_self.mpr fun e he => ?_
      have hlt := (List.pairwise_append.mp hsorted).2.2 e he entry hentry
      simp only [decide_eq_true_eq]
      omega
    simp only [inspectedEntries, List.filter_append, hpage]

/-! ## Windows and pages -/

theorem ascending_entriesFrom (hlog : Ascending log) (cursor : ℤ) :
    Ascending (entriesFrom log cursor) :=
  hlog.sublist List.filter_sublist

/-- A window is a beginning of the entries from its start. -/
theorem exists_selectedEntries_eq_take (log : List AuditLogEntry) (cursor : ℤ)
    (toSequence : Option ℤ) :
    ∃ n, selectedEntries log cursor toSequence = (entriesFrom log cursor).take n := by
  cases toSequence with
  | none => exact ⟨(entriesFrom log cursor).length, by simp [selectedEntries]⟩
  | some toSequence => exact ⟨_, rfl⟩

theorem ascending_selectedEntries (hlog : Ascending log) (cursor : ℤ) (toSequence : Option ℤ) :
    Ascending (selectedEntries log cursor toSequence) := by
  obtain ⟨n, hn⟩ := exists_selectedEntries_eq_take log cursor toSequence
  rw [hn]
  exact (ascending_entriesFrom hlog cursor).sublist (List.take_sublist _ _)

/-- The limit of the next page. -/
def pageLimit (toSequence : Option ℤ) (batchSize cursor : ℤ) : ℤ :=
  (toSequence.map fun toSequence => toSequence - cursor + 1).elim batchSize
    fun remaining => min batchSize remaining

/-- A page is a beginning of the window that is left. -/
theorem findFrom_pageLimit (log : List AuditLogEntry) (toSequence : Option ℤ)
    (batchSize cursor : ℤ) :
    findFrom log cursor (pageLimit toSequence batchSize cursor).toNat =
      (selectedEntries log cursor toSequence).take
        (pageLimit toSequence batchSize cursor).toNat := by
  cases toSequence with
  | none => rfl
  | some toSequence =>
    have hle : (pageLimit (some toSequence) batchSize cursor).toNat ≤
        (toSequence - cursor + 1).toNat := by
      simp only [pageLimit, Option.map_some, Option.elim_some]
      omega
    rw [findFrom_eq_take, selectedEntries, List.take_take, min_eq_left hle]

/-- Reading on behind the last entry of a beginning reads what is left of the entries. -/
theorem entriesFrom_eq_drop {cursor : ℤ} {m : ℕ} {last : AuditLogEntry} (hlog : Ascending log)
    (hlast : ((entriesFrom log cursor).take m).getLast? = some last) :
    entriesFrom log (last.sequence + 1) = (entriesFrom log cursor).drop m := by
  have hsorted := ascending_entriesFrom hlog cursor
  rw [← List.take_append_drop m (entriesFrom log cursor)] at hsorted
  obtain ⟨htake, -, hbehind⟩ := List.pairwise_append.mp hsorted
  have hmem : last ∈ (entriesFrom log cursor).take m := List.mem_of_getLast? hlast
  have hcursor := (mem_entriesFrom.mp (List.mem_of_mem_take hmem)).2
  have hle : cursor ≤ last.sequence + 1 := by omega
  have hbefore : ((entriesFrom log cursor).take m).filter
      (fun e => decide (last.sequence + 1 ≤ e.sequence)) = [] := by
    refine List.filter_eq_nil_iff.mpr fun e he => ?_
    have hle : e.sequence ≤ last.sequence := by
      obtain ⟨front, hfront⟩ := List.getLast?_eq_some_iff.mp hlast
      rw [hfront] at he htake
      rcases List.mem_append.mp he with he | he
      · exact ((List.pairwise_append.mp htake).2.2 e he last (by simp)).le
      · rw [List.mem_singleton.mp he]
    simp only [decide_eq_true_eq]
    omega
  have hafter : ((entriesFrom log cursor).drop m).filter
      (fun e => decide (last.sequence + 1 ≤ e.sequence)) = (entriesFrom log cursor).drop m := by
    refine List.filter_eq_self.mpr fun e he => ?_
    have hlt := hbehind last hmem e he
    simp only [decide_eq_true_eq]
    omega
  calc entriesFrom log (last.sequence + 1)
      = (entriesFrom log cursor).filter fun e => decide (last.sequence + 1 ≤ e.sequence) :=
        entriesFrom_eq_filter hle
    _ = ((entriesFrom log cursor).take m ++ (entriesFrom log cursor).drop m).filter
          fun e => decide (last.sequence + 1 ≤ e.sequence) := by rw [List.take_append_drop]
    _ = (entriesFrom log cursor).drop m := by
        rw [List.filter_append, hbefore, hafter, List.nil_append]

/-- The last entry of a page that passes is as far behind the cursor as the page is long. -/
theorem sequence_getLast_of_passed {previous : Option AuditLogEntry} {page : List AuditLogEntry}
    {last : AuditLogEntry} (hpage : verifyChainFrom sha256 previous page = none)
    (hlast : page.getLast? = some last) :
    last.sequence + 1 = nextSequence previous + page.length := by
  rw [List.getLast?_eq_getElem?, List.getElem?_eq_some_iff] at hlast
  obtain ⟨hi, rfl⟩ := hlast
  rw [sequence_getElem hpage _ hi]
  omega

/-- A page that starts at the cursor and passes leaves the window that starts behind it. -/
theorem selectedEntries_eq_append {previous : Option AuditLogEntry} {toSequence : Option ℤ}
    {cursor : ℤ} {n : ℕ} {last : AuditLogEntry} (hlog : Ascending log)
    (hpage : verifyChainFrom sha256 previous ((selectedEntries log cursor toSequence).take n) =
      none)
    (hlast : ((selectedEntries log cursor toSequence).take n).getLast? = some last)
    (hnext : nextSequence previous = cursor) :
    selectedEntries log cursor toSequence =
      (selectedEntries log cursor toSequence).take n ++
        selectedEntries log (last.sequence + 1) toSequence := by
  have hmoved := sequence_getLast_of_passed hpage hlast
  cases toSequence with
  | none =>
    have hbehind := entriesFrom_eq_drop hlog hlast
    simp only [selectedEntries, hbehind, List.take_append_drop]
  | some toSequence =>
    simp only [selectedEntries, List.take_take] at hlast hmoved ⊢
    have hbehind := entriesFrom_eq_drop hlog hlast
    rw [hbehind]
    rw [List.length_take] at hmoved
    by_cases hlong : min n (toSequence - cursor + 1).toNat ≤ (entriesFrom log cursor).length
    · have hcount : (toSequence - cursor + 1).toNat =
          min n (toSequence - cursor + 1).toNat +
            (toSequence - (last.sequence + 1) + 1).toNat := by
        omega
      conv_lhs => rw [hcount, List.take_add]
    · -- the log ends within the page
      rw [List.drop_of_length_le (by omega), List.take_nil, List.append_nil,
        List.take_of_length_le (by omega), List.take_of_length_le (by omega)]

/-- Every page asks for at least one entry. -/
theorem one_le_pageLimit {toSequence : Option ℤ} {batchSize cursor : ℤ} (hbatch : 1 ≤ batchSize)
    (h : ¬ (toSequence.map fun toSequence => toSequence - cursor + 1).any
      (fun remaining => decide (remaining < 1)) = true) :
    1 ≤ (pageLimit toSequence batchSize cursor).toNat := by
  cases toSequence with
  | none =>
    change 1 ≤ batchSize.toNat
    omega
  | some toSequence =>
    simp only [Option.map_some, Option.any_some, decide_eq_true_eq, not_lt] at h
    simp only [pageLimit, Option.map_some, Option.elim_some]
    omega

/-- The window is empty once its last number has been passed. -/
theorem selectedEntries_eq_nil {toSequence : Option ℤ} {cursor : ℤ}
    (h : (toSequence.map fun toSequence => toSequence - cursor + 1).any
      (fun remaining => decide (remaining < 1)) = true) :
    selectedEntries log cursor toSequence = [] := by
  cases toSequence with
  | none => simp at h
  | some toSequence =>
    simp only [Option.map_some, Option.any_some, decide_eq_true_eq] at h
    rw [selectedEntries, show (toSequence - cursor + 1).toNat = 0 by omega, List.take_zero]

/-- A page of a window that passes starts with the first entry behind the cursor. -/
theorem follows_of_page {previous : Option AuditLogEntry} {cursor : ℤ} {n : ℕ}
    {last : AuditLogEntry}
    (hpage : verifyChainFrom sha256 previous (findFrom log cursor n) = none)
    (hlast : (findFrom log cursor n).getLast? = some last) :
    ∃ first ∈ (entriesFrom log cursor).head?, Follows sha256 previous first := by
  rw [findFrom_eq_take] at hpage hlast
  cases hentries : entriesFrom log cursor with
  | nil => simp [hentries] at hlast
  | cons first rest =>
    cases n with
    | zero => simp at hlast
    | succ n =>
      rw [hentries, List.take_succ_cons] at hpage
      exact ⟨first, rfl, (verifyChainFrom_cons_eq_none_iff.mp hpage).1⟩

/-! ## The walk -/

/-- The walk reports the break that one check of the window it has before it reports, and has
inspected the entries of the window up to it. -/
theorem walkLoop_eq {toSequence : Option ℤ} {batchSize : ℤ} {organizationId : Option String}
    {wantedSequences : List ℤ} (hlog : Ascending log) (hbatch : 1 ≤ batchSize)
    (previous : Option AuditLogEntry) (cursor : ℤ) (tally : Tally)
    (hstart : ∀ first ∈ (entriesFrom log cursor).head?, Follows sha256 previous first →
      nextSequence previous = cursor) :
    (walkLoop sha256 log toSequence batchSize organizationId wantedSequences previous cursor
        tally).2 =
      (verifyChainFrom sha256 previous (selectedEntries log cursor toSequence),
        (inspectedEntries
            (verifyChainFrom sha256 previous (selectedEntries log cursor toSequence))
            (selectedEntries log cursor toSequence)).foldl
          (Tally.inspect sha256 organizationId wantedSequences) tally) := by
  fun_induction walkLoop sha256 log toSequence batchSize organizationId wantedSequences previous
    cursor tally with
  | case1 previous cursor tally remaining hpassed =>
    rw [selectedEntries_eq_nil hpassed]
    rfl
  | case2 previous cursor tally remaining hleft limit hempty =>
    have hlimit := one_le_pageLimit hbatch hleft
    have hpage : (selectedEntries log cursor toSequence).take
        (pageLimit toSequence batchSize cursor).toNat = [] := by
      rw [← findFrom_pageLimit]
      exact List.getLast?_eq_none_iff.mp hempty
    have hnil : selectedEntries log cursor toSequence = [] :=
      (List.take_eq_nil_iff.mp hpage).resolve_left (by omega)
    rw [hnil]
    rfl
  | case3 previous cursor tally remaining hleft limit last hlast page firstBreak tally' hstop =>
    have hpage : page = (selectedEntries log cursor toSequence).take limit.toNat :=
      findFrom_pageLimit log toSequence batchSize cursor
    have hsplit : selectedEntries log cursor toSequence =
        page ++ (selectedEntries log cursor toSequence).drop limit.toNat := by
      rw [hpage, List.take_append_drop]
    have hsorted := ascending_selectedEntries hlog cursor toSequence
    rw [hsplit] at hsorted
    cases hbreak : firstBreak with
    | some chainBreak =>
      -- the page has the first break, and nothing behind it counts
      have hwhole : verifyChainFrom sha256 previous (selectedEntries log cursor toSequence) =
          some chainBreak := by
        rw [hsplit, verifyChainFrom_append,
          show verifyChainFrom sha256 previous page = _ from hbreak, Option.some_or]
      rw [hwhole]
      conv_rhs => rw [hsplit, inspectedEntries_append_of_break hsorted hbreak]
      simp only [tally', hbreak]
    | none =>
      -- the page is short: the window ends with it
      have hshort : page.length < limit.toNat := by
        rcases hstop with hshort | hsome
        · exact hshort
        · simp [hbreak] at hsome
      have hall : selectedEntries log cursor toSequence = page := by
        rw [hpage] at hshort ⊢
        rw [List.length_take] at hshort
        rw [List.take_of_length_le (by omega)]
      rw [hall, show verifyChainFrom sha256 previous page = _ from hbreak]
      simp only [tally', hbreak]
  | case4 previous cursor tally remaining hleft limit last hlast page firstBreak tally' hgo ih =>
    have hpage : page = (selectedEntries log cursor toSequence).take limit.toNat :=
      findFrom_pageLimit log toSequence batchSize cursor
    have hnone : verifyChainFrom sha256 previous page = none := by
      cases hbreak : firstBreak with
      | none => exact hbreak
      | some chainBreak => exact absurd (.inr (by simp [hbreak])) hgo
    obtain ⟨first, hfirst, hfollows⟩ := follows_of_page hnone hlast
    have hnext := hstart first hfirst hfollows
    have hsplit : selectedEntries log cursor toSequence =
        page ++ selectedEntries log (last.sequence + 1) toSequence := by
      have hlast' : page.getLast? = some last := hlast
      rw [hpage] at hnone hlast' ⊢
      exact selectedEntries_eq_append hlog hnone hlast' hnext
    have hsorted := ascending_selectedEntries hlog cursor toSequence
    rw [hsplit] at hsorted
    have hrest : verifyChainFrom sha256 previous (selectedEntries log cursor toSequence) =
        verifyChainFrom sha256 (some last)
          (selectedEntries log (last.sequence + 1) toSequence) := by
      rw [hsplit, verifyChainFrom_append, hnone, Option.none_or,
        show page.getLast? = some last from hlast, Option.some_or]
    rw [ih fun _ _ _ => rfl, hrest]
    conv_rhs => rw [hsplit, inspectedEntries_append_of_none hsorted, List.foldl_append]
    have htally :
        tally' = page.foldl (Tally.inspect sha256 organizationId wantedSequences) tally := by
      simp only [tally', firstBreak, hnone, inspectedEntries]
    rw [htally]

/-- The seed of a window stands right before it, if the first entry of the window passes: when the
entry before the window is missing, the seed is that first entry itself. -/
theorem nextSequence_seedEntry {fromSequence : ℤ} (hfrom : 1 ≤ fromSequence)
    {first : AuditLogEntry} (hfirst : first ∈ (entriesFrom log fromSequence).head?)
    (hfollows : Follows sha256 (seedEntry log fromSequence) first) :
    nextSequence (seedEntry log fromSequence) = fromSequence := by
  unfold seedEntry at hfollows ⊢
  split at hfollows
  · rename_i hmid
    rw [if_pos hmid]
    rw [findFrom_eq_take] at hfollows ⊢
    rw [entriesFrom_eq_filter (show fromSequence - 1 ≤ fromSequence by omega)] at hfirst
    cases hentries : entriesFrom log (fromSequence - 1) with
    | nil => simp [hentries] at hfirst
    | cons seed rest =>
      rw [hentries] at hfirst hfollows
      have hseed : fromSequence - 1 ≤ seed.sequence :=
        (mem_entriesFrom.mp (hentries ▸ List.mem_cons_self)).2
      have hnumber : first.sequence = seed.sequence + 1 := hfollows.numbered
      change seed.sequence + 1 = fromSequence
      by_contra hgap
      have hsame : first = seed := by
        rw [List.filter_cons_of_pos (by simp only [decide_eq_true_eq]; omega)] at hfirst
        exact (Option.some.inj hfirst).symm
      rw [hsame] at hnumber
      omega
  · rename_i hstart
    rw [if_neg hstart]
    change (1 : ℤ) = fromSequence
    omega

/-! ## The tally of the inspected entries -/

section Tally

variable {organizationId : Option String} {wantedSequences : List ℤ}

theorem checkedEntries_foldl (entries : List AuditLogEntry) (tally : Tally) :
    (entries.foldl (Tally.inspect sha256 organizationId wantedSequences) tally).checkedEntries =
      tally.checkedEntries + entries.length := by
  induction entries generalizing tally with
  | nil => rfl
  | cons entry entries ih =>
    rw [List.foldl_cons, ih, List.length_cons]
    simp only [Tally.inspect]
    omega

theorem organizationEntryCount_foldl (entries : List AuditLogEntry) (tally : Tally) :
    (entries.foldl (Tally.inspect sha256 organizationId wantedSequences)
        tally).organizationEntryCount =
      tally.organizationEntryCount + entries.countP (carriesOrganization organizationId) := by
  induction entries generalizing tally with
  | nil => rfl
  | cons entry entries ih =>
    rw [List.foldl_cons, ih, List.countP_cons, Tally.inspect]
    split <;> simp only [*] <;> omega

/-- The hash kept for a wanted number is that of the inspected entry with this number. -/
theorem hashesBySequence_foldl {entries : List AuditLogEntry} (hentries : Ascending entries)
    {sequence : ℤ} (hwanted : sequence ∈ wantedSequences) (tally : Tally) :
    (entries.foldl (Tally.inspect sha256 organizationId wantedSequences)
        tally).hashesBySequence.get? sequence =
      ((entries.find? fun entry => decide (entry.sequence = sequence)).map
        fun entry => entry.recomputedHash sha256).or (tally.hashesBySequence.get? sequence) := by
  induction entries generalizing tally with
  | nil => rfl
  | cons entry entries ih =>
    obtain ⟨hhead, htail⟩ := List.pairwise_cons.mp hentries
    rw [List.foldl_cons, ih htail]
    by_cases hseq : entry.sequence = sequence
    · have hnone : (entries.find? fun e => decide (e.sequence = sequence)) = none := by
        refine List.find?_eq_none.mpr fun e he => ?_
        have hlt := hhead e he
        simp only [decide_eq_true_eq]
        omega
      simp [Tally.inspect, hnone, hseq, hwanted]
    · rw [List.find?_cons_of_neg (by simpa using hseq)]
      congr 1
      by_cases hmem : entry.sequence ∈ wantedSequences
      · simp only [Tally.inspect, if_pos hmem]
        exact OrderedMap.get?_set_of_ne _ hseq _
      · simp only [Tally.inspect, if_neg hmem]

end Tally

/-- The inspected entries are a part of the window. -/
theorem ascending_inspectedEntries {entries : List AuditLogEntry} (h : Ascending entries)
    (firstBreak : Option ChainBreak) : Ascending (inspectedEntries firstBreak entries) := by
  cases firstBreak with
  | none => exact h
  | some chainBreak => exact h.sublist List.filter_sublist

/-- A command within the bounds is not refused. -/
theorem validateCommand_eq_none {command : VerifyAuditChainCommand}
    (hfrom : 1 ≤ command.fromSequence.getD 1)
    (hto : ∀ toSequence ∈ command.toSequence, command.fromSequence.getD 1 ≤ toSequence)
    (hbatch : 1 ≤ command.batchSize.getD DEFAULT_VERIFY_BATCH_SIZE ∧
      command.batchSize.getD DEFAULT_VERIFY_BATCH_SIZE ≤ MAX_VERIFY_BATCH_SIZE) :
    validateCommand command = none := by
  have hwindow : (command.toSequence.any fun toSequence =>
      decide (toSequence < command.fromSequence.getD 1)) = false := by
    cases hcommand : command.toSequence with
    | none => rfl
    | some toSequence =>
      have := hto toSequence hcommand
      simpa using this
  rw [validateCommand, if_neg (by omega), hwindow, if_neg (by simp), if_neg (by omega)]

variable (sha256 log) in
/-- The break that one check of the whole window reports. -/
def windowBreak (fromSequence : ℤ) (toSequence : Option ℤ) : Option ChainBreak :=
  verifyChainFrom sha256 (seedEntry log fromSequence) (selectedEntries log fromSequence toSequence)

variable (sha256 log) in
/-- The entries of the window up to that break. -/
def windowInspected (fromSequence : ℤ) (toSequence : Option ℤ) : List AuditLogEntry :=
  inspectedEntries (windowBreak sha256 log fromSequence toSequence)
    (selectedEntries log fromSequence toSequence)

/-- What is inspected is stored. -/
theorem mem_of_mem_windowInspected {fromSequence : ℤ} {toSequence : Option ℤ}
    {entry : AuditLogEntry} (h : entry ∈ windowInspected sha256 log fromSequence toSequence) :
    entry ∈ log := by
  have hselected : entry ∈ selectedEntries log fromSequence toSequence := by
    unfold windowInspected inspectedEntries at h
    split at h
    · exact h
    · exact List.mem_of_mem_filter h
  obtain ⟨n, hn⟩ := exists_selectedEntries_eq_take log fromSequence toSequence
  rw [hn] at hselected
  exact (mem_entriesFrom.mp (List.mem_of_mem_take hselected)).1

theorem ascending_windowInspected (hlog : Ascending log) (fromSequence : ℤ)
    (toSequence : Option ℤ) : Ascending (windowInspected sha256 log fromSequence toSequence) :=
  ascending_inspectedEntries (ascending_selectedEntries hlog _ _) _

/-- What the walk returns, in terms of one check of the whole window. -/
theorem walk_eq (hlog : Ascending log) {fromSequence batchSize : ℤ} (hfrom : 1 ≤ fromSequence)
    (hbatch : 1 ≤ batchSize) (toSequence : Option ℤ) (organizationId : Option String)
    (records : List AnchorRecord) :
    let w := walk sha256 log fromSequence toSequence batchSize organizationId records
    w.firstBreak = windowBreak sha256 log fromSequence toSequence ∧
      w.checkedEntries = (windowInspected sha256 log fromSequence toSequence).length ∧
      w.organizationEntryCount =
        (windowInspected sha256 log fromSequence toSequence).countP
          (carriesOrganization organizationId) ∧
      ∀ record ∈ records, w.hashesBySequence.get? record.sequence =
        ((windowInspected sha256 log fromSequence toSequence).find?
          fun entry => decide (entry.sequence = record.sequence)).map
            fun entry => entry.recomputedHash sha256 := by
  have hloop : (walkLoop sha256 log toSequence batchSize organizationId
        (records.map fun record => record.sequence) (seedEntry log fromSequence) fromSequence
        Tally.empty).2 =
      (windowBreak sha256 log fromSequence toSequence,
        (windowInspected sha256 log fromSequence toSequence).foldl
          (Tally.inspect sha256 organizationId (records.map fun record => record.sequence))
          Tally.empty) :=
    walkLoop_eq hlog hbatch (seedEntry log fromSequence) fromSequence Tally.empty
      fun first hfirst hfollows => nextSequence_seedEntry hfrom hfirst hfollows
  refine ⟨congrArg Prod.fst hloop, ?_, ?_, fun record hrecord => ?_⟩
  · refine (congrArg (fun x => x.2.checkedEntries) hloop).trans ?_
    rw [checkedEntries_foldl]
    exact Nat.zero_add _
  · refine (congrArg (fun x => x.2.organizationEntryCount) hloop).trans ?_
    rw [organizationEntryCount_foldl]
    exact Nat.zero_add _
  · refine (congrArg (fun x => x.2.hashesBySequence.get? record.sequence) hloop).trans ?_
    dsimp only
    rw [hashesBySequence_foldl (ascending_windowInspected hlog fromSequence toSequence)
      (List.mem_map_of_mem hrecord)]
    exact Option.or_none

/-- The bounds a command meets that is not refused. -/
theorem bounds_of_validateCommand {command : VerifyAuditChainCommand}
    (h : validateCommand command = none) :
    1 ≤ command.fromSequence.getD 1 ∧ 1 ≤ command.batchSize.getD DEFAULT_VERIFY_BATCH_SIZE := by
  unfold validateCommand at h
  dsimp only at h
  split at h
  · cases h
  · split at h
    · cases h
    · split at h
      · cases h
      · omega

/-- The verdict and the checks of a verification that consults receipts. -/
theorem verdict_of_execute (hlog : Ascending log)
    {anchorRecords : Option (ℕ → List AnchorRecord)}
    {anchorVerifier : Option (String → String → Except AnchorFailure Bool)}
    {command : VerifyAuditChainCommand} (hcommand : validateCommand command = none)
    (hcheck : command.checkAnchors = some true) :
    ∃ result, VerifyAuditChain.execute sha256 log anchorRecords anchorVerifier command =
        .ok result ∧
      result.valid =
        (windowBreak sha256 log (command.fromSequence.getD 1) command.toSequence).isNone ∧
      result.anchorChecks = (consultedRecords anchorRecords command).map fun record =>
        checkAnchor anchorVerifier
          (((windowInspected sha256 log (command.fromSequence.getD 1) command.toSequence).find?
            fun entry => decide (entry.sequence = record.sequence)).map
              fun entry => entry.recomputedHash sha256) record := by
  obtain ⟨hfrom, hbatch⟩ := bounds_of_validateCommand hcommand
  obtain ⟨hbreak, -, -, hhashes⟩ :=
    @walk_eq sha256 log hlog _ _ hfrom hbatch command.toSequence command.organizationId
      (consultedRecords anchorRecords command)
  refine ⟨_, by rw [VerifyAuditChain.execute, hcommand], congrArg Option.isNone hbreak, ?_⟩
  rw [if_pos hcheck, checkAnchors]
  refine List.map_congr_left fun record hrecord => ?_
  rw [hhashes record hrecord]

/-- Whatever the batch size, verification of a window of a stored log ends and reports what one
check of the selected entries reports, seeded with the entry before them: the break, the verdict,
the entries counted up to the break, and whether each receipt consulted matches the recomputed
hash. -/
theorem execute_eq_verifyChainFrom (hlog : Ascending log)
    (anchorRecords : Option (ℕ → List AnchorRecord))
    (anchorVerifier : Option (String → String → Except AnchorFailure Bool))
    {command : VerifyAuditChainCommand} (hfrom : 1 ≤ command.fromSequence.getD 1)
    (hto : ∀ toSequence ∈ command.toSequence, command.fromSequence.getD 1 ≤ toSequence)
    (hbatch : 1 ≤ command.batchSize.getD DEFAULT_VERIFY_BATCH_SIZE ∧
      command.batchSize.getD DEFAULT_VERIFY_BATCH_SIZE ≤ MAX_VERIFY_BATCH_SIZE) :
    let selected := selectedEntries log (command.fromSequence.getD 1) command.toSequence
    let firstBreak :=
      verifyChainFrom sha256 (seedEntry log (command.fromSequence.getD 1)) selected
    let inspected := inspectedEntries firstBreak selected
    ∃ result, VerifyAuditChain.execute sha256 log anchorRecords anchorVerifier command =
        .ok result ∧
      result.firstBreak = firstBreak ∧
      result.valid = firstBreak.isNone ∧
      result.checkedEntries = inspected.length ∧
      result.organizationEntryCount =
        inspected.countP (carriesOrganization command.organizationId) ∧
      (command.checkAnchors = some true →
        result.anchorChecks.map (fun check => check.matchesDatabaseChain) =
          (consultedRecords anchorRecords command).map fun record =>
            (inspected.find? fun entry => decide (entry.sequence = record.sequence)).map
              fun entry => decide (entry.recomputedHash sha256 = record.chainHash)) := by
  obtain ⟨hbreak, hchecked, horganization, hhashes⟩ :=
    @walk_eq sha256 log hlog _ _ hfrom hbatch.1 command.toSequence command.organizationId
      (consultedRecords anchorRecords command)
  refine ⟨_, by rw [VerifyAuditChain.execute, validateCommand_eq_none hfrom hto hbatch], hbreak,
    congrArg Option.isNone hbreak, hchecked, horganization, fun hcheck => ?_⟩
  rw [if_pos hcheck, checkAnchors, List.map_map]
  refine List.map_congr_left fun record hrecord => ?_
  rw [Function.comp_apply, hhashes record hrecord]
  exact Option.map_map _ _ _

/-- Verification of everything, one entry a page. -/
def samplePaged : VerifyAuditChainCommand := ⟨none, none, none, some 1, none, none⟩

/-- The sample chain passes in pages of one. -/
theorem execute_eq_verifyChainFrom_sample :
    ∃ result, VerifyAuditChain.execute sampleSha256 [sampleGenesis, sampleSecond] none none
        samplePaged = .ok result ∧
      result.firstBreak = none ∧ result.checkedEntries = 2 := by
  obtain ⟨result, hresult, hbreak, -, hchecked, -⟩ :=
    @execute_eq_verifyChainFrom sampleSha256 [sampleGenesis, sampleSecond] (by decide) none none
      samplePaged (by decide) (by simp [samplePaged]) (by decide)
  exact ⟨result, hresult, hbreak.trans (by decide +kernel), hchecked.trans (by decide +kernel)⟩

end Verixa
