import Verixa.Audit.RecordAuditEvent

/-!
# The batched audit writer

`BatchedAuditWriter` queues commands and writes them in batches.  A flush takes the first
`maxBatchSize` commands of the queue, links them onto the head of the log and appends them as one
unit, trying again up to `maxFlushAttempts` times (`drainLoop`, a program over the repository's
calls); when it ends, as many commands are removed from the front of the queue.

`WriterState` is the writer's own state together with the store, and `WriterState.step` is what
can happen next: a call of `record`, `execute`, `flush`, `start` or `stop`, a tick of the timer, an
answer to the call a flush waits for, the end of a flush, its promise being cleared, a step of a
`settle` loop, or an append by somebody else.  Everything the code does without awaiting is one
step.
-/

namespace Verixa

open Concurrency

/-! ## One flush -/

/-- How the attempts of a flush ended. -/
inductive DrainOutcome where
  | written (entries : List AuditLogEntry)
  | failed (lastError : Option Failure)
  deriving DecidableEq

/-- The entries a flush has written. -/
def DrainOutcome.entries : DrainOutcome → List AuditLogEntry
  | .written entries => entries
  | .failed _ => []

section Drain

variable (sha256 : String → String)

/-- The loop of `drainOnce` over its attempts, with the number of those that remain. -/
def drainLoop (batch : List RecordAuditEventCommand) :
    ℕ → Option Failure → AuditProgram DrainOutcome
  | 0, lastError => return .failed lastError
  | remaining + 1, _ => do
    match ← findLatest with
    | .error error => drainLoop batch remaining (some error)
    | .ok previous =>
      match linkEntries sha256 (← ambient) 0 previous batch with
      | .error error => drainLoop batch remaining (some (.error error.message))
      | .ok entries =>
        match ← appendMany entries (headHash previous) with
        | .error error => drainLoop batch remaining (some error)
        | .ok (.ok ()) => return .written entries
        | .ok (.error error) => do
          countConflict
          drainLoop batch remaining (some (.conflict error))

variable {sha256}
variable {conflict : List AuditLogEntry → List AuditLogEntry → String → Option ChainConflictError}
  {I : List AuditLogEntry → Prop} {i : ℕ}
  {allowed : ℕ → AuditStore → AuditRequest → AuditInput → Prop} {s : AuditStore}

/-- What a flush has achieved when its attempts end: it has written what it returns, one entry for
each command of the batch in order unless it failed. -/
structure Drained (sha256 : String → String) (i : ℕ) (batch : List RecordAuditEventCommand)
    (s : AuditStore) (outcome : DrainOutcome) : Prop where
  written : s.writtenBy i = outcome.entries
  built : ∀ entries, outcome = .written entries → List.Forall₂ (BuiltFor sha256) batch entries

/-- A flush keeps to the contract of the recorders. -/
theorem safe_drainLoop (hkept : KeptByAppends sha256 conflict I)
    (batch : List RecordAuditEventCommand) (remaining : ℕ) (lastError : Option Failure)
    (hidle : s.writtenBy i = []) :
    Safe (recording I) (AuditStore.serve conflict) allowed i (Drained sha256 i batch)
      (drainLoop sha256 batch remaining lastError) s := by
  induction remaining generalizing s lastError with
  | zero =>
    exact fun t ht _ => ⟨ht.2.trans hidle, fun entries h => nomatch h⟩
  | succ remaining ih =>
    refine safe_findLatest (fun t error ht => ih (some error) (ht.2.trans hidle)) ?_
    intro t previous ht hprevious
    refine safe_ambient fun u ambient hu => ?_
    have hidle_u := hu.2.trans (ht.2.trans hidle)
    split
    · exact ih _ hidle_u
    · rename_i entries hlinked
      obtain ⟨hchain, hbuilt⟩ := verifyChainFrom_linkEntries hlinked
      refine safe_appendMany hkept (fun p hp => hu.1.subset (hprevious p hp)) hchain ?_ ?_
      · intro v hv w hw _
        refine ⟨?_, ?_⟩
        · rw [hw.2, hv, hidle_u]
          rfl
        · rintro entries' ⟨⟩
          exact hbuilt
      · intro v answer hv hanswer
        have hidle_v := hv.2.trans hidle_u
        match answer with
        | .error error => exact ih _ hidle_v
        | .ok (.ok ()) => exact absurd rfl hanswer
        | .ok (.error error) => exact safe_countConflict fun w hw => ih _ (hw.2.trans hidle_v)

end Drain

/-! ## The writer's state -/

/-- The queue was full, so this event was refused. -/
structure AuditQueueFullError where
  queueLimit : ℕ
  action : AuditAction
  deriving DecidableEq

/-- The text of a refusal. -/
def AuditQueueFullError.message (e : AuditQueueFullError) : String :=
  s!"Audit write queue is full ({e.queueLimit} entries pending); refused a \"{e.action.text}\" event."

/-- Emitted once for each refused record. -/
structure AuditOverflowReport where
  reason : String
  dropped : RecordAuditEventCommand
  queueLength : ℕ
  queueLimit : ℕ
  overflowedTotal : ℕ
  writtenTotal : ℕ
  deriving DecidableEq

/-- Emitted when a whole batch failed. -/
structure AuditBatchFailureReport where
  reason : String
  commands : List RecordAuditEventCommand
  attempts : ℕ
  error : Option Failure
  deriving DecidableEq

/-- The options that decide what the writer does. -/
structure BatchedAuditWriterOptions where
  maxBatchSize : ℕ
  maxQueueSize : ℕ
  maxFlushAttempts : ℕ

/-- The options a writer has when none are given. -/
def BatchedAuditWriterOptions.default : BatchedAuditWriterOptions :=
  ⟨100, 10000, 3⟩

/-- The promise held in `this.flushing`: the batch and what is left of `drainOnce`, which is
`none` once `drainOnce` has ended and the promise is yet to be cleared. -/
structure Flush where
  id : ℕ
  batch : List RecordAuditEventCommand
  program : Option (AuditProgram DrainOutcome)

/-- A flush whose attempts have ended, and how. -/
structure FinishedFlush where
  batch : List RecordAuditEventCommand
  outcome : DrainOutcome
  deriving DecidableEq

/-- Where a call of `settle` stands. -/
inductive SettlePhase where
  /-- In the loop: awaiting a flush, called when the queue had `before` entries. -/
  | awaitingFlush (before flush : ℕ)
  /-- Behind the loop: awaiting the flush that was in flight, if one was. -/
  | awaitingLast (flush : Option ℕ)
  /-- Resolved, when `accepted` was what `record` had accepted so far. -/
  | resolved (accepted : List RecordAuditEventCommand)
  deriving DecidableEq

/-- A call of `settle`, made by `stop` or by somebody else. -/
structure Settler where
  byStop : Bool
  phase : SettlePhase
  deriving DecidableEq

/-- The writer, the store it writes to, and what happened so far: the commands `record` accepted
and the flushes that ended. -/
structure WriterState where
  queue : List RecordAuditEventCommand
  timer : Bool
  flushing : Option Flush
  stopped : Bool
  enqueuedTotal : ℕ
  writtenTotal : ℕ
  batchesTotal : ℕ
  overflowedTotal : ℕ
  largestBatchTotal : ℕ
  failedBatchesTotal : ℕ
  overflows : List AuditOverflowReport
  failures : List AuditBatchFailureReport
  settlers : OrderedMap ℕ Settler
  store : AuditStore
  nextFlush : ℕ
  accepted : List RecordAuditEventCommand
  finished : List FinishedFlush

/-- Lifetime counters. -/
structure AuditWriterStats where
  pending : ℕ
  enqueued : ℕ
  written : ℕ
  batches : ℕ
  conflicts : ℕ
  overflowed : ℕ
  largestBatch : ℕ
  failedBatches : ℕ
  deriving DecidableEq

namespace WriterState

/-- A new writer over a store that holds `log`. -/
def initial (log : List AuditLogEntry) : WriterState where
  queue := []
  timer := false
  flushing := none
  stopped := false
  enqueuedTotal := 0
  writtenTotal := 0
  batchesTotal := 0
  overflowedTotal := 0
  largestBatchTotal := 0
  failedBatchesTotal := 0
  overflows := []
  failures := []
  settlers := OrderedMap.empty
  store := AuditStore.ofLog log
  nextFlush := 0
  accepted := []
  finished := []

/-- `stats()`. -/
def stats (s : WriterState) : AuditWriterStats where
  pending := s.queue.length
  enqueued := s.enqueuedTotal
  written := s.writtenTotal
  batches := s.batchesTotal
  conflicts := s.store.conflicts.length
  overflowed := s.overflowedTotal
  largestBatch := s.largestBatchTotal
  failedBatches := s.failedBatchesTotal

section Operations

variable (sha256 : String → String) (o : BatchedAuditWriterOptions)

/-- The end of `drainOnce`: the batch leaves the queue by position. -/
def finish (s : WriterState) (batch : List RecordAuditEventCommand) (outcome : DrainOutcome) :
    WriterState :=
  let s : WriterState := { s with
    queue := s.queue.drop batch.length
    finished := s.finished ++ [⟨batch, outcome⟩] }
  match outcome with
  | .written entries =>
    { s with
      writtenTotal := s.writtenTotal + entries.length
      batchesTotal := s.batchesTotal + 1
      largestBatchTotal := max s.largestBatchTotal entries.length }
  | .failed lastError =>
    { s with
      failedBatchesTotal := s.failedBatchesTotal + 1
      failures := s.failures ++ [⟨"flush_failed", batch, o.maxFlushAttempts, lastError⟩] }

/-- `flush()` as far as it runs without awaiting: it shares the flush in flight, or begins
`drainOnce`. -/
def flush (s : WriterState) : WriterState :=
  match s.flushing with
  | some _ => s
  | none =>
    let batch := s.queue.take o.maxBatchSize
    let s' : WriterState := { s with nextFlush := s.nextFlush + 1 }
    if s.queue.length = 0 then { s' with flushing := some ⟨s.nextFlush, [], none⟩ }
    else match drainLoop sha256 batch o.maxFlushAttempts none with
      -- no attempt is allowed: drainOnce ends before its first await
      | .ret outcome => { s'.finish o batch outcome with flushing := some ⟨s.nextFlush, [], none⟩ }
      | program => { s' with flushing := some ⟨s.nextFlush, batch, some program⟩ }

/-- Offers one entry to the queue. -/
def record (s : WriterState) (command : RecordAuditEventCommand) :
    Except AuditQueueFullError Unit × WriterState :=
  if s.queue.length ≥ o.maxQueueSize then
    (.error ⟨o.maxQueueSize, command.action⟩,
      { s with
        overflowedTotal := s.overflowedTotal + 1
        overflows := s.overflows ++
          [⟨"queue_full", command, s.queue.length, o.maxQueueSize, s.overflowedTotal + 1,
            s.writtenTotal⟩] })
  else
    let s : WriterState := { s with
      queue := s.queue ++ [command]
      enqueuedTotal := s.enqueuedTotal + 1
      accepted := s.accepted ++ [command] }
    (.ok (), if s.queue.length ≥ o.maxBatchSize then s.flush sha256 o else s)

/-- Set the phase of the `settle` call `k`. -/
def setSettler (s : WriterState) (k : ℕ) (settler : Settler) : WriterState :=
  { s with settlers := s.settlers.set k settler }

/-- The part of `settle` behind its loop. -/
def awaitLast (s : WriterState) (k : ℕ) (byStop : Bool) : WriterState :=
  s.setSettler k ⟨byStop, .awaitingLast (s.flushing.map fun f => f.id)⟩

/-- The loop of `settle`, up to its next await. -/
def settleLoop (s : WriterState) (k : ℕ) (byStop : Bool) : WriterState :=
  if s.queue.length > 0 then
    let s' := s.flush sha256 o
    match s'.flushing with
    | some f => s'.setSettler k ⟨byStop, .awaitingFlush s.queue.length f.id⟩
    | none => s'
  else s.awaitLast k byStop

/-- Whether the flush with the given id is over, its promise cleared: what awaits it can go on. -/
def isOver (s : WriterState) (flush : ℕ) : Bool :=
  s.flushing.all fun f => f.id ≠ flush

/-- What happens when a `settle` call goes on after an await. -/
def resume (s : WriterState) (k : ℕ) : Option WriterState :=
  match s.settlers.get? k with
  | some ⟨byStop, .awaitingFlush before flush⟩ =>
    if s.isOver flush then
      -- a pass that removed nothing counts as a failed batch
      if s.queue.length ≥ before then some (s.awaitLast k byStop)
      else some (s.settleLoop sha256 o k byStop)
    else none
  | some ⟨byStop, .awaitingLast flush⟩ =>
    if flush.all s.isOver then some (s.setSettler k ⟨byStop, .resolved s.accepted⟩) else none
  | _ => none

end Operations

end WriterState

/-- What can happen next. -/
inductive WriterEvent where
  | record (command : RecordAuditEventCommand)
  | execute (command : RecordAuditEventCommand)
  | flush
  | start
  | tick
  | stop (k : ℕ)
  | settle (k : ℕ)
  /-- The repository answers the call the flush in flight waits for. -/
  | answer (input : AuditInput)
  /-- `drainOnce` goes on after its last await and ends. -/
  | drained
  /-- The flush in flight has ended and `this.flushing` is cleared. -/
  | cleared
  /-- A `settle` call goes on after an await. -/
  | resume (k : ℕ)
  /-- Somebody else appends to the log. -/
  | others (entries : List AuditLogEntry)

/-- One step of the writer over a repository whose check is `conflict`. -/
def WriterState.step (sha256 : String → String)
    (conflict : List AuditLogEntry → List AuditLogEntry → String → Option ChainConflictError)
    (o : BatchedAuditWriterOptions) (s : WriterState) : WriterEvent → Option WriterState
  | .record command => some (s.record sha256 o command).2
  | .execute command => some (s.record sha256 o command).2
  | .flush => some (s.flush sha256 o)
  | .start => some (if s.timer || s.stopped then s else { s with timer := true })
  | .tick => if s.timer then some (s.flush sha256 o) else none
  | .stop k =>
    if (s.settlers.get? k).isSome then none
    else some (({ s with stopped := true, timer := false }).settleLoop sha256 o k true)
  | .settle k =>
    if (s.settlers.get? k).isSome then none else some (s.settleLoop sha256 o k false)
  | .answer input =>
    match s.flushing with
    | some ⟨id, batch, some (.call q k)⟩ =>
      (s.store.serve conflict id q input).map fun r =>
        { s with store := r.2, flushing := some ⟨id, batch, some (k r.1)⟩ }
    | _ => none
  | .drained =>
    match s.flushing with
    | some ⟨id, batch, some (.ret outcome)⟩ =>
      some { s.finish o batch outcome with flushing := some ⟨id, [], none⟩ }
    | _ => none
  | .cleared =>
    match s.flushing with
    | some ⟨_, _, none⟩ => some { s with flushing := none }
    | _ => none
  | .resume k => s.resume sha256 o k
  | .others entries => some { s with store := s.store.write none entries }

end Verixa
