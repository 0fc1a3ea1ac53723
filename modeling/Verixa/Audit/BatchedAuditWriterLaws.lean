import Verixa.Audit.BatchedAuditWriter

/-!
# The batched writer neither loses, duplicates nor reorders

In every run of the writer, with any number of other writers on the same log, the commands that
`record` accepted are, in order, those of the flushes that ended followed by the queue.  The
invariant has two parts.  `Ledger` is the bookkeeping of the writer's own fields; it is kept by
everything that removes a prefix of the queue as a finished batch.  `FlightInv` ties the flush in
flight to the queue and to the log: its batch is a prefix of the queue, because `record` appends at
the other end and nothing else removes anything while `this.flushing` is set, and what is left of
its program is safe under the contract of the recorders.
-/

namespace Verixa

open Concurrency

/-- The entries the writers of the model have put in the log, in order. -/
def AuditStore.ownEntries (s : AuditStore) : List AuditLogEntry :=
  (s.appended.filter fun x => x.1.isSome).map Prod.snd

/-- What the writers of the model have put in the log is in it. -/
theorem AuditStore.mem_log_of_mem_ownEntries {s : AuditStore} {entry : AuditLogEntry}
    (h : entry ∈ s.ownEntries) : entry ∈ s.log := by
  simp only [AuditStore.ownEntries, List.mem_map, List.mem_filter] at h
  obtain ⟨x, ⟨hx, -⟩, rfl⟩ := h
  exact List.mem_append_right _ (List.mem_map_of_mem hx)

/-- The report of a flush, if it failed. -/
def FinishedFlush.report (o : BatchedAuditWriterOptions) (f : FinishedFlush) :
    Option AuditBatchFailureReport :=
  match f.outcome with
  | .written _ => none
  | .failed lastError => some ⟨"flush_failed", f.batch, o.maxFlushAttempts, lastError⟩

namespace WriterState

variable {sha256 : String → String}
  {conflict : List AuditLogEntry → List AuditLogEntry → String → Option ChainConflictError}
  {o : BatchedAuditWriterOptions} {s : WriterState}

/-- The entries of the flush in flight that are in the log already. -/
def inFlight (s : WriterState) : List AuditLogEntry :=
  match s.flushing with
  | some ⟨id, _, some _⟩ => s.store.writtenBy id
  | _ => []

/-! ## The bookkeeping -/

/-- The writer's own fields agree with what happened. -/
structure Ledger (sha256 : String → String) (o : BatchedAuditWriterOptions) (s : WriterState) :
    Prop where
  accepted : s.accepted = s.finished.flatMap (fun f => f.batch) ++ s.queue
  queue_le : s.queue.length ≤ o.maxQueueSize
  enqueued : s.enqueuedTotal = s.accepted.length
  written : s.writtenTotal = (s.finished.map fun f => f.outcome.entries.length).sum
  failures : s.failures = s.finished.filterMap (FinishedFlush.report o)
  built : ∀ f ∈ s.finished, ∀ entries, f.outcome = .written entries →
    List.Forall₂ (BuiltFor sha256) f.batch entries

@[simp] theorem queue_finish (batch : List RecordAuditEventCommand) (outcome : DrainOutcome) :
    (s.finish o batch outcome).queue = s.queue.drop batch.length := by
  cases outcome <;> rfl

@[simp] theorem finished_finish (batch : List RecordAuditEventCommand) (outcome : DrainOutcome) :
    (s.finish o batch outcome).finished = s.finished ++ [⟨batch, outcome⟩] := by
  cases outcome <;> rfl

@[simp] theorem accepted_finish (batch : List RecordAuditEventCommand) (outcome : DrainOutcome) :
    (s.finish o batch outcome).accepted = s.accepted := by
  cases outcome <;> rfl

@[simp] theorem enqueuedTotal_finish (batch : List RecordAuditEventCommand)
    (outcome : DrainOutcome) :
    (s.finish o batch outcome).enqueuedTotal = s.enqueuedTotal := by
  cases outcome <;> rfl

@[simp] theorem writtenTotal_finish (batch : List RecordAuditEventCommand)
    (outcome : DrainOutcome) :
    (s.finish o batch outcome).writtenTotal = s.writtenTotal + outcome.entries.length := by
  cases outcome <;> rfl

@[simp] theorem failures_finish (batch : List RecordAuditEventCommand) (outcome : DrainOutcome) :
    (s.finish o batch outcome).failures =
      s.failures ++ (FinishedFlush.report o ⟨batch, outcome⟩).toList := by
  cases outcome with
  | written entries => simp [finish, FinishedFlush.report]
  | failed lastError => simp [finish, FinishedFlush.report]

@[simp] theorem store_finish (batch : List RecordAuditEventCommand) (outcome : DrainOutcome) :
    (s.finish o batch outcome).store = s.store := by
  cases outcome <;> rfl

@[simp] theorem nextFlush_finish (batch : List RecordAuditEventCommand) (outcome : DrainOutcome) :
    (s.finish o batch outcome).nextFlush = s.nextFlush := by
  cases outcome <;> rfl

@[simp] theorem settlers_finish (batch : List RecordAuditEventCommand) (outcome : DrainOutcome) :
    (s.finish o batch outcome).settlers = s.settlers := by
  cases outcome <;> rfl

/-- The books depend on six fields only. -/
theorem Ledger.of_same (h : Ledger sha256 o s) {t : WriterState}
    (haccepted : t.accepted = s.accepted)
    (hfinished : t.finished = s.finished) (hqueue : t.queue = s.queue)
    (henqueued : t.enqueuedTotal = s.enqueuedTotal) (hwritten : t.writtenTotal = s.writtenTotal)
    (hfailures : t.failures = s.failures) : Ledger sha256 o t := by
  refine ⟨?_, ?_, ?_, ?_, ?_, ?_⟩
  · rw [haccepted, hfinished, hqueue, h.accepted]
  · rw [hqueue]
    exact h.queue_le
  · rw [henqueued, haccepted, h.enqueued]
  · rw [hwritten, hfinished, h.written]
  · rw [hfailures, hfinished, h.failures]
  · rw [hfinished]
    exact h.built

/-- The end of a flush whose batch is a prefix of the queue keeps the books. -/
theorem Ledger.finish (h : Ledger sha256 o s) {batch : List RecordAuditEventCommand}
    (hbatch : batch <+: s.queue) {outcome : DrainOutcome}
    (hbuilt : ∀ entries, outcome = .written entries →
      List.Forall₂ (BuiltFor sha256) batch entries) :
    Ledger sha256 o (s.finish o batch outcome) := by
  obtain ⟨rest, hrest⟩ := hbatch
  have hdrop : s.queue.drop batch.length = rest := by
    rw [← hrest, List.drop_left]
  refine ⟨?_, ?_, ?_, ?_, ?_, ?_⟩
  · rw [accepted_finish, finished_finish, queue_finish, hdrop, h.accepted, ← hrest]
    simp
  · rw [queue_finish, List.length_drop]
    exact (Nat.sub_le _ _).trans h.queue_le
  · rw [enqueuedTotal_finish, accepted_finish, h.enqueued]
  · rw [writtenTotal_finish, finished_finish, h.written]
    simp
  · rw [failures_finish, finished_finish, h.failures, List.filterMap_append]
    cases outcome <;> rfl
  · intro f hf entries hentries
    rw [finished_finish, List.mem_append, List.mem_singleton] at hf
    rcases hf with hf | rfl
    · exact h.built f hf entries hentries
    · exact hbuilt entries hentries

/-- Accepting a command keeps the books as long as there is room. -/
theorem Ledger.push (h : Ledger sha256 o s) (hroom : s.queue.length < o.maxQueueSize)
    (command : RecordAuditEventCommand) :
    Ledger sha256 o { s with
      queue := s.queue ++ [command]
      enqueuedTotal := s.enqueuedTotal + 1
      accepted := s.accepted ++ [command] } := by
  refine ⟨?_, ?_, ?_, h.written, h.failures, h.built⟩
  · simp [h.accepted]
  · simpa using hroom
  · simp [h.enqueued]

/-! ## The flush in flight -/

/-- Any check of a repository keeps the trivial property of logs. -/
theorem keptByAppends_true : KeptByAppends sha256 conflict fun _ => True :=
  fun _ _ _ _ _ _ _ => trivial

variable (sha256 conflict) in
/-- What is left of a flush is safe under the contract of the recorders. -/
abbrev SafeFlush (id : ℕ) (batch : List RecordAuditEventCommand)
    (program : AuditProgram DrainOutcome) (store : AuditStore) : Prop :=
  Safe (recording fun _ => True) (AuditStore.serve conflict) (fun _ _ _ _ => True) id
    (Drained sha256 id batch) program store

/-- The flush in flight agrees with the queue and with the log. -/
structure FlightInv (sha256 : String → String)
    (conflict : List AuditLogEntry → List AuditLogEntry → String → Option ChainConflictError)
    (s : WriterState) : Prop where
  fresh : ∀ j, s.nextFlush ≤ j → s.store.writtenBy j = []
  flight : ∀ id batch program, s.flushing = some ⟨id, batch, some program⟩ →
    id < s.nextFlush ∧ batch <+: s.queue ∧ SafeFlush sha256 conflict id batch program s.store
  own : s.store.ownEntries = s.finished.flatMap (fun f => f.outcome.entries) ++ s.inFlight

/-- The invariant of the writer. -/
structure Inv (sha256 : String → String)
    (conflict : List AuditLogEntry → List AuditLogEntry → String → Option ChainConflictError)
    (o : BatchedAuditWriterOptions) (s : WriterState) : Prop where
  ledger : Ledger sha256 o s
  flight : FlightInv sha256 conflict s

/-- Nothing is in flight when `this.flushing` is unset or its `drainOnce` has ended. -/
theorem inFlight_eq_nil (h : ∀ id batch program, s.flushing ≠ some ⟨id, batch, some program⟩) :
    s.inFlight = [] := by
  unfold inFlight
  split
  · rename_i id batch program hflushing
    exact absurd hflushing (h id batch program)
  · rfl

/-- A new writer satisfies the invariant. -/
theorem inv_initial (log : List AuditLogEntry) : Inv sha256 conflict o (initial log) where
  ledger := ⟨rfl, Nat.zero_le _, rfl, rfl, rfl, fun _ hf => nomatch hf⟩
  flight := ⟨fun _ _ => rfl, fun _ _ _ h => (nomatch h), rfl⟩

/-- The end of a flush keeps the invariant: its entries move from those in flight to those of the
finished flushes. -/
theorem Inv.finish {id : ℕ} {batch : List RecordAuditEventCommand} {outcome : DrainOutcome}
    (hledger : Ledger sha256 o s) (hfresh : ∀ j, s.nextFlush ≤ j → s.store.writtenBy j = [])
    (hbatch : batch <+: s.queue) (hdrained : Drained sha256 id batch s.store outcome)
    (hown : s.store.ownEntries =
      s.finished.flatMap (fun f => f.outcome.entries) ++ s.store.writtenBy id) (flush : Flush)
    (hflush : flush.program = none) :
    Inv sha256 conflict o { s.finish o batch outcome with flushing := some flush } := by
  have hidle : ∀ id' batch' program,
      (some flush : Option Flush) ≠ some ⟨id', batch', some program⟩ := by
    rintro id' batch' program ⟨⟩
    cases hflush
  refine ⟨(hledger.finish hbatch hdrained.built).of_same rfl rfl rfl rfl rfl rfl, ?_, ?_, ?_⟩
  · simpa using hfresh
  · intro id' batch' program hflushing
    exact absurd hflushing (hidle id' batch' program)
  · rw [inFlight_eq_nil hidle]
    simp [hown, hdrained.written]

/-- `flush()` keeps the invariant. -/
theorem Inv.flush (h : Inv sha256 conflict o s) : Inv sha256 conflict o (s.flush sha256 o) := by
  unfold WriterState.flush
  split
  · exact h
  · rename_i hnone
    have hfresh : s.store.writtenBy s.nextFlush = [] := h.flight.fresh _ le_rfl
    have hfresh' : ∀ j, s.nextFlush + 1 ≤ j → s.store.writtenBy j = [] :=
      fun j hj => h.flight.fresh j (by omega)
    have hown : s.store.ownEntries = s.finished.flatMap fun f => f.outcome.entries := by
      have hown := h.flight.own
      rw [inFlight_eq_nil (by simp [hnone]), List.append_nil] at hown
      exact hown
    have hsafe : SafeFlush sha256 conflict s.nextFlush (s.queue.take o.maxBatchSize)
        (drainLoop sha256 (s.queue.take o.maxBatchSize) o.maxFlushAttempts none) s.store :=
      safe_drainLoop keptByAppends_true _ _ _ hfresh
    dsimp only
    split
    · refine ⟨h.ledger.of_same rfl rfl rfl rfl rfl rfl, hfresh', ?_, ?_⟩
      · rintro id batch program ⟨⟩
      · rw [inFlight_eq_nil (by simp), List.append_nil]
        exact hown
    · split
      · rename_i outcome houtcome
        rw [houtcome] at hsafe
        have hdrained := hsafe s.store ((recording _).rely_refl _ _) trivial
        refine Inv.finish (s := { s with nextFlush := s.nextFlush + 1 })
          (h.ledger.of_same rfl rfl rfl rfl rfl rfl) hfresh'
          (List.take_prefix _ _) hdrained ?_ _ rfl
        simp [hown, hfresh]
      · rename_i program hprogram
        refine ⟨h.ledger.of_same rfl rfl rfl rfl rfl rfl, hfresh', ?_, ?_⟩
        · rintro id batch program' ⟨⟩
          exact ⟨Nat.lt_succ_self _, List.take_prefix _ _, hsafe⟩
        · simp [inFlight, hown, hfresh]

/-- What does not touch the queue, the flush in flight, the log or the books keeps the
invariant. -/
theorem Inv.of_same (h : Inv sha256 conflict o s) {t : WriterState}
    (hledger : Ledger sha256 o t) (hqueue : t.queue = s.queue) (hfinished : t.finished = s.finished)
    (hflushing : t.flushing = s.flushing) (hstore : t.store = s.store)
    (hnext : t.nextFlush = s.nextFlush) : Inv sha256 conflict o t := by
  refine ⟨hledger, ?_, ?_, ?_⟩
  · rw [hnext, hstore]
    exact h.flight.fresh
  · rw [hflushing, hnext, hqueue, hstore]
    exact h.flight.flight
  · rw [inFlight, hflushing, hfinished, hstore]
    exact h.flight.own

/-- The phase of a `settle` call is not part of the invariant. -/
theorem Inv.setSettler (h : Inv sha256 conflict o s) (k : ℕ) (settler : Settler) :
    Inv sha256 conflict o (s.setSettler k settler) :=
  h.of_same (h.ledger.of_same rfl rfl rfl rfl rfl rfl) rfl rfl rfl rfl rfl

/-- `record` keeps the invariant: a command is appended behind the batch in flight. -/
theorem Inv.record (h : Inv sha256 conflict o s) (command : RecordAuditEventCommand) :
    Inv sha256 conflict o (s.record sha256 o command).2 := by
  unfold WriterState.record
  split
  · exact h.of_same (h.ledger.of_same rfl rfl rfl rfl rfl rfl) rfl rfl rfl rfl rfl
  · rename_i hroom
    have hpush : Inv sha256 conflict o { s with
        queue := s.queue ++ [command]
        enqueuedTotal := s.enqueuedTotal + 1
        accepted := s.accepted ++ [command] } := by
      refine ⟨h.ledger.push (by omega) command, h.flight.fresh, ?_, h.flight.own⟩
      intro id batch program hflushing
      obtain ⟨hid, hbatch, hsafe⟩ := h.flight.flight id batch program hflushing
      exact ⟨hid, hbatch.trans (List.prefix_append _ _), hsafe⟩
    dsimp only
    split
    · exact hpush.flush
    · exact hpush

/-- `settle` keeps the invariant: it only flushes. -/
theorem Inv.settleLoop (h : Inv sha256 conflict o s) (k : ℕ) (byStop : Bool) :
    Inv sha256 conflict o (s.settleLoop sha256 o k byStop) := by
  unfold WriterState.settleLoop
  split
  · dsimp only
    split
    · exact h.flush.setSettler k _
    · exact h.flush
  · exact h.setSettler k _

/-- A `settle` call that goes on keeps the invariant. -/
theorem Inv.resume (h : Inv sha256 conflict o s) {k : ℕ} {t : WriterState}
    (ht : s.resume sha256 o k = some t) : Inv sha256 conflict o t := by
  unfold WriterState.resume at ht
  split at ht
  · split at ht
    · split at ht
      · cases ht
        exact h.setSettler k _
      · cases ht
        exact h.settleLoop k _
    · cases ht
  · split at ht
    · cases ht
      exact h.setSettler k _
    · cases ht
  · cases ht

/-- An answer to the flush in flight keeps the invariant: what it writes, it writes under its own
name. -/
theorem Inv.answer (h : Inv sha256 conflict o s) {id : ℕ} {batch : List RecordAuditEventCommand}
    {q : AuditRequest} {k : q.Answer → AuditProgram DrainOutcome}
    (hflushing : s.flushing = some ⟨id, batch, some (.call q k)⟩) {input : AuditInput}
    {answer : q.Answer} {store : AuditStore}
    (hserve : s.store.serve conflict id q input = some (answer, store)) :
    Inv sha256 conflict o
      { s with store := store, flushing := some ⟨id, batch, some (k answer)⟩ } := by
  obtain ⟨hid, hbatch, hsafe⟩ := h.flight.flight id batch _ hflushing
  obtain ⟨-, hothers, hsafe'⟩ :=
    hsafe s.store input answer store ((recording _).rely_refl _ _) trivial trivial hserve
  obtain ⟨entries, happended⟩ := serve_appended hserve
  refine ⟨h.ledger.of_same rfl rfl rfl rfl rfl rfl, ?_, ?_, ?_⟩
  · intro j hj
    have hne : j ≠ id := by
      have : s.nextFlush ≤ j := hj
      omega
    exact (hothers j hne).2.trans (h.flight.fresh j hj)
  · rintro id' batch' program ⟨⟩
    exact ⟨hid, hbatch, hsafe'⟩
  · have hown := h.flight.own
    rw [inFlight, hflushing] at hown
    simp only [AuditStore.ownEntries, AuditStore.writtenBy, inFlight, happended] at hown ⊢
    simp only [List.filter_append, List.map_append, hown, List.append_assoc]
    simp [List.filter_map, Function.comp_def]

/-- Somebody else's append keeps the invariant. -/
theorem Inv.others (h : Inv sha256 conflict o s) (entries : List AuditLogEntry) :
    Inv sha256 conflict o { s with store := s.store.write none entries } := by
  have hwritten : ∀ j, (s.store.write none entries).writtenBy j = s.store.writtenBy j := fun j =>
    AuditStore.writtenBy_write_of_ne _ (by simp) _
  have hrely : ∀ j, (recording fun _ => True).rely j s.store (s.store.write none entries) :=
    fun j => ⟨by rw [AuditStore.log_write]; exact List.prefix_append _ _, hwritten j⟩
  refine ⟨h.ledger.of_same rfl rfl rfl rfl rfl rfl, ?_, ?_, ?_⟩
  · intro j hj
    exact (hwritten j).trans (h.flight.fresh j hj)
  · intro id batch program hflushing
    obtain ⟨hid, hbatch, hsafe⟩ := h.flight.flight id batch program hflushing
    exact ⟨hid, hbatch, hsafe.of_rely (hrely id)⟩
  · have hown := h.flight.own
    have hsame : (s.store.write none entries).ownEntries = s.store.ownEntries := by
      simp [AuditStore.ownEntries, AuditStore.write, List.filter_map, Function.comp_def]
    simp only [hsame, hown, inFlight, hwritten]

/-- Every step keeps the invariant. -/
theorem Inv.step (h : Inv sha256 conflict o s) {e : WriterEvent} {t : WriterState}
    (ht : s.step sha256 conflict o e = some t) : Inv sha256 conflict o t := by
  cases e with
  | record command => cases ht; exact h.record command
  | execute command => cases ht; exact h.record command
  | flush => cases ht; exact h.flush
  | start =>
    cases ht
    split
    · exact h
    · exact h.of_same (h.ledger.of_same rfl rfl rfl rfl rfl rfl) rfl rfl rfl rfl rfl
  | tick =>
    simp only [WriterState.step] at ht
    split at ht
    · cases ht; exact h.flush
    · cases ht
  | stop k =>
    simp only [WriterState.step] at ht
    split at ht
    · cases ht
    · cases ht
      refine Inv.settleLoop ?_ k true
      exact h.of_same (h.ledger.of_same rfl rfl rfl rfl rfl rfl) rfl rfl rfl rfl rfl
  | settle k =>
    simp only [WriterState.step] at ht
    split at ht
    · cases ht
    · cases ht; exact h.settleLoop k false
  | answer input =>
    simp only [WriterState.step] at ht
    split at ht
    · rename_i id batch q k hflushing
      obtain ⟨r, hserve, rfl⟩ := Option.map_eq_some_iff.mp ht
      exact h.answer hflushing hserve
    · cases ht
  | drained =>
    simp only [WriterState.step] at ht
    split at ht
    · rename_i id batch outcome hflushing
      cases ht
      obtain ⟨hid, hbatch, hsafe⟩ := h.flight.flight id batch _ hflushing
      have hown := h.flight.own
      rw [inFlight, hflushing] at hown
      exact Inv.finish h.ledger h.flight.fresh hbatch
        (hsafe s.store ((recording _).rely_refl _ _) trivial) hown _ rfl
    · cases ht
  | cleared =>
    simp only [WriterState.step] at ht
    split at ht
    · rename_i id batch hflushing
      cases ht
      have hown := h.flight.own
      rw [inFlight, hflushing] at hown
      refine ⟨h.ledger.of_same rfl rfl rfl rfl rfl rfl, h.flight.fresh, ?_, hown⟩
      rintro id batch program ⟨⟩
    · cases ht
  | resume k => exact h.resume ht
  | others entries => cases ht; exact h.others entries

/-- The invariant holds in every run. -/
theorem inv_of_run {log : List AuditLogEntry}
    (hrun : Run (WriterState.step sha256 conflict o) (initial log) s) : Inv sha256 conflict o s :=
  hrun.invariant (inv_initial log) fun _ _ _ h _ hstep => h.step hstep

/-! ## The laws -/

/-- A flush has written one entry for each command of its batch, or is reported with all of
them. -/
theorem length_batch_eq {f : FinishedFlush}
    (h : ∀ entries, f.outcome = .written entries → List.Forall₂ (BuiltFor sha256) f.batch entries) :
    f.batch.length = f.outcome.entries.length +
      ((f.report o).toList.map fun r => r.commands.length).sum := by
  cases houtcome : f.outcome with
  | written entries =>
    simp [FinishedFlush.report, houtcome, DrainOutcome.entries, (h entries houtcome).length_eq]
  | failed lastError => simp [FinishedFlush.report, houtcome, DrainOutcome.entries]

/-- The commands of the finished flushes are those written and those reported. -/
theorem length_flatMap_batch {fs : List FinishedFlush}
    (h : ∀ f ∈ fs, ∀ entries, f.outcome = .written entries →
      List.Forall₂ (BuiltFor sha256) f.batch entries) :
    (fs.flatMap fun f => f.batch).length =
      (fs.map fun f => f.outcome.entries.length).sum +
        ((fs.filterMap (FinishedFlush.report o)).map fun r => r.commands.length).sum := by
  induction fs with
  | nil => rfl
  | cons f fs ih =>
    have hf := length_batch_eq (o := o) (h f List.mem_cons_self)
    have hfs := ih fun g hg => h g (List.mem_cons_of_mem _ hg)
    have hsplit : (f :: fs).filterMap (FinishedFlush.report o) =
        (f.report o).toList ++ fs.filterMap (FinishedFlush.report o) := by
      cases hreport : f.report o <;> simp [hreport]
    rw [hsplit]
    simp only [List.flatMap_cons, List.length_append, List.map_cons, List.sum_cons,
      List.map_append, List.sum_append]
    omega

/-- In every run the accepted commands are, in order, those of the finished flushes and the
queue; the queue is bounded; the counters balance; the failed flushes are those reported; and the
entries of this writer in the log are, in order, those of the successful flushes, one built for
each of their commands, followed by those of a flush about to end. -/
theorem writer_conserves {log : List AuditLogEntry}
    (hrun : Run (WriterState.step sha256 conflict o) (initial log) s) :
    s.accepted = s.finished.flatMap (fun f => f.batch) ++ s.queue ∧
      s.queue.length ≤ o.maxQueueSize ∧
      s.stats.enqueued =
        s.stats.written + s.stats.pending + (s.failures.map fun r => r.commands.length).sum ∧
      s.failures = s.finished.filterMap (FinishedFlush.report o) ∧
      s.store.ownEntries = s.finished.flatMap (fun f => f.outcome.entries) ++ s.inFlight ∧
      ∀ f ∈ s.finished, ∀ entries, f.outcome = .written entries →
        List.Forall₂ (BuiltFor sha256) f.batch entries := by
  obtain ⟨h, hflight⟩ := inv_of_run hrun
  refine ⟨h.accepted, h.queue_le, ?_, h.failures, hflight.own, h.built⟩
  have hlength := length_flatMap_batch (o := o) h.built
  simp only [stats, h.enqueued, h.accepted, h.written, h.failures, List.length_append, hlength]
  omega

/-- A writer with batches of one: the second command arrives while the first is being written. -/
def sampleWriting : List WriterEvent :=
  [.start, .record sampleRegistration, .answer .served,
    .answer (.ambient <| ambientOf "a1" sampleTime), .answer .served,
    .record sampleLogin, .drained, .cleared, .tick, .flush,
    .answer .served, .answer (.ambient <| ambientOf "a2" sampleTimeLater), .answer .served,
    .drained]

/-- What the sample run ends in. -/
def sampleWritten : WriterState :=
  (exec (WriterState.step sampleSha256 InMemoryAuditLogRepository.conflict ⟨1, 10, 2⟩) (initial [])
    sampleWriting).get (by decide +kernel)

/-- In the sample run both commands end up in the log, in order. -/
theorem writer_conserves_sample :
    sampleWritten.accepted = sampleWritten.finished.flatMap (fun f => f.batch) ++
        sampleWritten.queue ∧
      sampleWritten.store.ownEntries = [sampleGenesis, sampleSecond] := by
  obtain ⟨haccepted, -, -, -, hown, -⟩ :=
    @writer_conserves sampleSha256 InMemoryAuditLogRepository.conflict ⟨1, 10, 2⟩ sampleWritten []
      (runWhile_get _)
  exact ⟨haccepted, hown.trans (by decide +kernel)⟩

end WriterState

end Verixa
