import Verixa.Audit.BatchedAuditWriter

/-!
# Concurrent recorders

Any number of `RecordAuditEvent.execute` calls, `recordAuditEventBatch` calls and flushes of
batched writers work on one repository whose `appendMany` is atomic.  Their calls interleave in
any way, and each call may also fail.  All three keep to the contract of the recorders, so the
rely-guarantee rule gives what holds in every interleaving: the log is a verified chain at every
moment, and a recorder that has returned has written exactly what it returns.
-/

namespace Verixa

open Concurrency

/-- What a thread is asked to do. -/
inductive RecordingCommand where
  | recordAuditEvent (maxAttempts : ℕ) (command : RecordAuditEventCommand)
  | recordAuditEventBatch (commands : List RecordAuditEventCommand)
  | flush (maxFlushAttempts : ℕ) (batch : List RecordAuditEventCommand)
  deriving DecidableEq

namespace RecordingCommand

/-- What a recorder returns. -/
def Result : RecordingCommand → Type
  | recordAuditEvent _ _ => Option AuditLogEntry
  | recordAuditEventBatch _ => List AuditLogEntry
  | flush _ _ => DrainOutcome

instance : (c : RecordingCommand) → DecidableEq c.Result
  | recordAuditEvent _ _ => inferInstanceAs (DecidableEq (Option AuditLogEntry))
  | recordAuditEventBatch _ => inferInstanceAs (DecidableEq (List AuditLogEntry))
  | flush _ _ => inferInstanceAs (DecidableEq DrainOutcome)

/-- The entries a recorder returns. -/
def entries : (c : RecordingCommand) → c.Result → List AuditLogEntry
  | recordAuditEvent _ _, result => Option.toList result
  | recordAuditEventBatch _, result => result
  | flush _ _, outcome => DrainOutcome.entries outcome

variable (sha256 : String → String)

/-- The program of a recorder. -/
def body : (c : RecordingCommand) → AuditProgram c.Result
  | recordAuditEvent maxAttempts command => RecordAuditEvent.execute sha256 maxAttempts command
  | recordAuditEventBatch commands => Verixa.recordAuditEventBatch sha256 commands
  | flush maxFlushAttempts batch => drainLoop sha256 batch maxFlushAttempts none

end RecordingCommand

/-- The recorders at work on one store. -/
abbrev RecordingPool :=
  Pool AuditStore AuditRequest AuditRequest.Answer RecordingCommand.Result

/-- One step of the recorders over the in-memory repository. -/
def recordingStep (sha256 : String → String) :
    RecordingPool → PoolEvent RecordingCommand AuditInput → Option RecordingPool :=
  Pool.step (AuditStore.serve InMemoryAuditLogRepository.conflict) (RecordingCommand.body sha256)

/-- The store before anybody has recorded anything. -/
def recordingStart (log : List AuditLogEntry) : RecordingPool := Pool.initial (AuditStore.ofLog log)

variable {sha256 : String → String}

/-- Every recorder keeps to the contract and has written what it returns. -/
theorem safe_body {allowed : ℕ → AuditStore → AuditRequest → AuditInput → Prop} (i : ℕ)
    (c : RecordingCommand) {s : AuditStore} (hidle : s.writtenBy i = []) :
    Safe (recording fun log => verifyChain sha256 log = none)
      (AuditStore.serve InMemoryAuditLogRepository.conflict) allowed i
      (fun t result => t.writtenBy i = c.entries result) (c.body sha256) s := by
  cases c with
  | recordAuditEvent maxAttempts command =>
    exact RecordAuditEvent.safe_attemptLoop keptByAppends_conflict command maxAttempts _ hidle
  | recordAuditEventBatch commands =>
    exact safe_recordAuditEventBatch keptByAppends_conflict commands hidle
  | flush maxFlushAttempts batch =>
    exact (safe_drainLoop keptByAppends_conflict batch maxFlushAttempts none hidle).imp
      fun t outcome h => h.written

/-- The recorders keep to their contract in every run. -/
theorem sound_recording {log : List AuditLogEntry} (hlog : verifyChain sha256 log = none)
    {P : RecordingPool} (hrun : Run (recordingStep sha256) (recordingStart log) P) :
    Sound (recording fun log => verifyChain sha256 log = none)
      (AuditStore.serve InMemoryAuditLogRepository.conflict) (fun _ _ _ _ => True)
      (fun i s => s.writtenBy i = [])
      (fun i c _ t result => t.writtenBy i = c.entries result) P := by
  refine sound_of_run (fun i s t hst hidle => hst.2.trans hidle)
    (fun i c s _ hidle => safe_body i c hidle) (sound_initial ?_ fun i => rfl)
    (hrun.mono fun P e _ => ?_)
  · simpa [recording, AuditStore.ofLog, AuditStore.log] using hlog
  · unfold Pool.Allows
    split
    · trivial
    · split <;> trivial

/-- An entry of a verified log stands in it once. -/
theorem count_eq_one_of_mem {log : List AuditLogEntry} (hlog : verifyChain sha256 log = none)
    {entry : AuditLogEntry} (h : entry ∈ log) : log.count entry = 1 :=
  List.count_eq_one_of_mem (List.Nodup.of_map _ (nodup_sequence hlog)) h

/-- In every interleaving of recorders the log is a verified chain at every moment; a recorder
that has returned has written what it returns, each entry stands in the log once, and a recorder
that returns nothing has written nothing. -/
theorem recording_concurrent {log : List AuditLogEntry} (hlog : verifyChain sha256 log = none)
    {P : RecordingPool} (hrun : Run (recordingStep sha256) (recordingStart log) P) :
    verifyChain sha256 P.store.log = none ∧
      ∀ i c result, P.returned i = some ⟨c, result⟩ →
        P.store.writtenBy i = c.entries result ∧
          (∀ entry ∈ c.entries result, P.store.log.count entry = 1) ∧
          (c.entries result = [] → ∀ x ∈ P.store.appended, x.1 ≠ some i) := by
  have hsound := sound_recording hlog hrun
  have hchain : verifyChain sha256 P.store.log = none := hsound.inv
  refine ⟨hchain, fun i c result hi => ?_⟩
  obtain ⟨begun, hi⟩ := Pool.threads_of_returned hi
  have hwritten : P.store.writtenBy i = c.entries result := hsound.done_of_ret hi
  refine ⟨hwritten, fun entry hentry => ?_, fun hnone x hx hxi => ?_⟩
  · exact count_eq_one_of_mem hchain (AuditStore.mem_log_of_mem_writtenBy (hwritten ▸ hentry))
  · have hmem : x.2 ∈ P.store.writtenBy i :=
      List.mem_map_of_mem (List.mem_filter.mpr ⟨hx, by simpa using hxi⟩)
    rw [hwritten, hnone] at hmem
    simp at hmem

/-- A registration and a burst of logins recorded at the same time, while a flush cannot read the
head. -/
def sampleRecording : List (PoolEvent RecordingCommand AuditInput) :=
  [.start 0 (.recordAuditEvent 3 sampleRegistration),
    .start 1 (.recordAuditEventBatch [sampleLogin]),
    .start 2 (.flush 1 [sampleLogin]),
    .answer 0 .served,
    .answer 2 (.throws (.error "connection lost")),
    .answer 0 (.ambient <| ambientOf "a1" sampleTime),
    .answer 0 .served,
    .answer 1 .served,
    .answer 1 (.ambient <| ambientOf "a2" sampleTimeLater),
    .answer 1 .served]

/-- What the sample recording ends in. -/
def sampleRecorded : RecordingPool :=
  (exec (recordingStep sampleSha256) (recordingStart []) sampleRecording).get (by decide +kernel)

/-- In the sample recording the registration is in the log once, and the flush has written
nothing. -/
theorem recording_concurrent_sample :
    verifyChain sampleSha256 sampleRecorded.store.log = none ∧
      sampleRecorded.store.log.count sampleGenesis = 1 ∧
      ∀ x ∈ sampleRecorded.store.appended, x.1 ≠ some 2 := by
  obtain ⟨hchain, hreturned⟩ :=
    @recording_concurrent sampleSha256 [] rfl sampleRecorded (runWhile_get _)
  refine ⟨hchain, ?_, ?_⟩
  · have h := hreturned 0 (.recordAuditEvent 3 sampleRegistration) (some sampleGenesis)
      (by decide +kernel)
    exact h.2.1 sampleGenesis (by decide)
  · have h := hreturned 2 (.flush 1 [sampleLogin])
      (.failed (some (.error "connection lost"))) (by decide +kernel)
    exact h.2.2 rfl

end Verixa
