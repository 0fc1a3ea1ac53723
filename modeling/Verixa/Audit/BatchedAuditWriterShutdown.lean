import Verixa.Audit.BatchedAuditWriterLaws

/-!
# Shutdown of the batched writer

`stop` promises that what `record` accepted is written or reported before it resolves.  Its loop
takes a pass that did not make the queue shorter for a failed batch, and leaves.  A record that
arrives while a flush is awaited makes up for one that is written, so the loop can leave with
commands in the queue (`stop_leaves_queued`).

`QuietShutdown` is the condition on the steps under which the promise is kept: while a stopping
`settle` awaits a flush, fewer commands arrive than the flush removes, none arrives behind its
loop, and its loop does not share a flush that has ended already.  Under it the queue is shorter
after every pass (`Settled`), so the loop ends with an empty queue.
-/

namespace Verixa

open Concurrency

namespace WriterState

variable {sha256 : String → String}
  {conflict : List AuditLogEntry → List AuditLogEntry → String → Option ChainConflictError}
  {o : BatchedAuditWriterOptions} {s t : WriterState}

/-! ## The condition -/

/-- How many commands of the queue the end of the given flush will remove. -/
def stillToRemove (s : WriterState) (flush : ℕ) : ℕ :=
  match s.flushing with
  | some ⟨id, batch, some _⟩ => if id = flush then batch.length else 0
  | _ => 0

/-- There is room for one more command while a stopping `settle` is in the given phase. -/
def RoomFor (s : WriterState) : SettlePhase → Prop
  | .awaitingFlush before flush => s.queue.length + 1 < before + s.stillToRemove flush
  | .awaitingLast _ => False
  | .resolved _ => True

/-- A call of `flush()` made now by the loop of `settle` would not share a flush that has ended. -/
def FlushesAnew (s : WriterState) : Prop :=
  s.queue = [] ∨ ∀ f ∈ s.flushing, f.program.isSome = true

instance (s : WriterState) : (phase : SettlePhase) → Decidable (s.RoomFor phase)
  | .awaitingFlush before flush =>
    inferInstanceAs (Decidable (s.queue.length + 1 < before + s.stillToRemove flush))
  | .awaitingLast _ => inferInstanceAs (Decidable False)
  | .resolved _ => inferInstanceAs (Decidable True)

instance (s : WriterState) : Decidable s.FlushesAnew :=
  inferInstanceAs (Decidable (_ ∨ _))

/-- The `settle` call is in its loop. -/
def inLoop : SettlePhase → Bool
  | .awaitingFlush _ _ => true
  | _ => false

/-- Nothing happens that makes a stopping `settle` give up early. -/
def QuietShutdown (o : BatchedAuditWriterOptions) (s : WriterState) : WriterEvent → Prop
  | .record _ | .execute _ => s.queue.length < o.maxQueueSize →
      ∀ x ∈ s.settlers.values, x.byStop = true → s.RoomFor x.phase
  | .stop _ => s.FlushesAnew
  | .resume k => ∀ x ∈ s.settlers.get? k, x.byStop = true → inLoop x.phase = true → s.FlushesAnew
  | _ => True

instance (o : BatchedAuditWriterOptions) (s : WriterState) :
    (e : WriterEvent) → Decidable (s.QuietShutdown o e)
  | .record _ => inferInstanceAs (Decidable (_ → ∀ x ∈ s.settlers.values, _ → _))
  | .execute _ => inferInstanceAs (Decidable (_ → ∀ x ∈ s.settlers.values, _ → _))
  | .stop _ => inferInstanceAs (Decidable s.FlushesAnew)
  | .resume k => inferInstanceAs (Decidable (∀ x ∈ s.settlers.get? k, _ → _ → s.FlushesAnew))
  | .flush | .start | .tick | .settle _ | .answer _ | .drained | .cleared | .others _ =>
    inferInstanceAs (Decidable True)

/-! ## Every pass makes the queue shorter -/

/-- Where a stopping `settle` stands: the flush it awaits will leave the queue shorter than it
was, the queue is empty behind the loop, and what was accepted at its end is accounted for. -/
def Settled (s : WriterState) : SettlePhase → Prop
  | .awaitingFlush before flush => s.queue.length < before + s.stillToRemove flush
  | .awaitingLast _ => s.queue = []
  | .resolved accepted => accepted <+: s.finished.flatMap fun f => f.batch

/-- The invariant of a shutdown: every stopping `settle` is on its way, and the flush in flight
has something to write. -/
structure ShutdownInv (s : WriterState) : Prop where
  settled : ∀ k phase, s.settlers.get? k = some ⟨true, phase⟩ → s.Settled phase
  batch_ne_nil : ∀ id batch program, s.flushing = some ⟨id, batch, some program⟩ → batch ≠ []

/-- A step that removes from the queue no less than it takes from what is still to be removed. -/
structure Calm (s t : WriterState) : Prop where
  queue : ∀ flush, t.queue.length + s.stillToRemove flush ≤ s.queue.length + t.stillToRemove flush
  empty : s.queue = [] → t.queue = []
  finished : s.finished <+: t.finished

/-- A calm step leaves every `settle` on its way. -/
theorem Settled.of_calm {phase : SettlePhase} (h : s.Settled phase) (hcalm : Calm s t) :
    t.Settled phase := by
  cases phase with
  | awaitingFlush before flush =>
    have hqueue := hcalm.queue flush
    have hlt : s.queue.length < before + s.stillToRemove flush := h
    change t.queue.length < before + t.stillToRemove flush
    omega
  | awaitingLast flush => exact hcalm.empty h
  | resolved accepted =>
    obtain ⟨more, hmore⟩ := hcalm.finished
    refine List.IsPrefix.trans h ?_
    rw [← hmore, List.flatMap_append]
    exact List.prefix_append _ _

/-- A step that leaves the queue, the flush in flight and the finished flushes is calm. -/
theorem calm_of_same (hqueue : t.queue = s.queue) (hflushing : t.flushing = s.flushing)
    (hfinished : t.finished = s.finished) : Calm s t := by
  refine ⟨fun flush => ?_, fun h => hqueue.trans h, hfinished ▸ List.prefix_rfl⟩
  rw [stillToRemove, stillToRemove, hqueue, hflushing]

/-- A flush that is over has nothing still to remove. -/
theorem stillToRemove_eq_zero_of_isOver {flush : ℕ} (h : s.isOver flush = true) :
    s.stillToRemove flush = 0 := by
  unfold stillToRemove
  split
  · rename_i id batch program hflushing
    have hne : id ≠ flush := by simpa [isOver, hflushing] using h
    rw [if_neg hne]
  · rfl

/-- What `flush()` does: nothing while a flush is in flight, else it begins one whose batch is at
the front of the queue, or ends one at once. -/
theorem flush_cases (sha256 : String → String) (o : BatchedAuditWriterOptions)
    (s : WriterState) :
    (s.flush sha256 o = s ∧ s.flushing.isSome = true) ∨
    (s.flushing = none ∧ (s.flush sha256 o).settlers = s.settlers ∧
      s.finished <+: (s.flush sha256 o).finished ∧
      ((∃ id program, (s.flush sha256 o).queue = s.queue ∧ s.queue ≠ [] ∧
          (s.flush sha256 o).flushing = some ⟨id, s.queue.take o.maxBatchSize, some program⟩) ∨
        (∃ id, (s.flush sha256 o).flushing = some ⟨id, [], none⟩ ∧
          (s.flush sha256 o).queue = s.queue.drop (s.queue.take o.maxBatchSize).length))) := by
  unfold WriterState.flush
  split
  · rename_i f hf
    exact .inl ⟨rfl, by simp [hf]⟩
  · rename_i hnone
    refine .inr ⟨hnone, ?_⟩
    dsimp only
    split
    · rename_i hempty
      obtain hnil : s.queue = [] := List.length_eq_zero_iff.mp hempty
      exact ⟨rfl, List.prefix_rfl, .inr ⟨s.nextFlush, rfl, by simp [hnil]⟩⟩
    · rename_i hne
      have hne' : s.queue ≠ [] := fun h => hne (by simp [h])
      split
      · rename_i outcome _
        refine ⟨settlers_finish _ _, ?_, .inr ⟨s.nextFlush, rfl, queue_finish _ _⟩⟩
        change s.finished <+: (WriterState.finish o _ _ outcome).finished
        rw [finished_finish]
        exact List.prefix_append _ _
      · exact ⟨rfl, List.prefix_rfl, .inl ⟨s.nextFlush, _, rfl, hne', rfl⟩⟩

/-- `flush()` is calm. -/
theorem calm_flush (s : WriterState) : Calm s (s.flush sha256 o) := by
  rcases flush_cases sha256 o s with ⟨hsame, -⟩ | ⟨hnone, -, hfinished, hbegun⟩
  · rw [hsame]
    exact calm_of_same rfl rfl rfl
  · have hzero : ∀ flush, s.stillToRemove flush = 0 := fun flush => by simp [stillToRemove, hnone]
    have hle : (s.flush sha256 o).queue.length ≤ s.queue.length := by
      rcases hbegun with ⟨id, program, hqueue, -, -⟩ | ⟨id, -, hqueue⟩
      · rw [hqueue]
      · rw [hqueue, List.length_drop]
        exact Nat.sub_le _ _
    refine ⟨fun flush => ?_, fun hempty => ?_, hfinished⟩
    · rw [hzero]
      omega
    · rw [hempty, List.length_nil, Nat.le_zero] at hle
      exact List.length_eq_zero_iff.mp hle

/-- The loop of `settle` is on its way after it has called `flush()`. -/
theorem settled_flush (hbatch : 1 ≤ o.maxBatchSize) (h : ShutdownInv s) (hanew : s.FlushesAnew)
    (hqueue : s.queue ≠ []) {f : Flush} (hf : (s.flush sha256 o).flushing = some f) :
    (s.flush sha256 o).Settled (.awaitingFlush s.queue.length f.id) := by
  have hpos : 0 < s.queue.length := List.length_pos_iff.mpr hqueue
  have htake : 0 < (s.queue.take o.maxBatchSize).length := by
    rw [List.length_take]
    omega
  change (s.flush sha256 o).queue.length < s.queue.length + (s.flush sha256 o).stillToRemove f.id
  rcases flush_cases sha256 o s with ⟨hsame, -⟩ | ⟨-, -, -, ⟨id, program, hsameQueue, -, hbegun⟩ |
    ⟨id, -, hdrop⟩⟩
  · -- the flush is shared: it is under way, with something to write
    rw [hsame] at hf ⊢
    obtain ⟨id, batch, program⟩ := f
    have hsome : program.isSome = true := hanew.resolve_left hqueue _ hf
    obtain ⟨program, rfl⟩ := Option.isSome_iff_exists.mp hsome
    have hne := List.length_pos_iff.mpr (h.batch_ne_nil id batch program hf)
    simpa [stillToRemove, hf] using hne
  · obtain rfl := Option.some.inj (hbegun.symm.trans hf)
    simp only [stillToRemove, hbegun, hsameQueue, if_true]
    omega
  · rw [hdrop, List.length_drop]
    omega

/-! ## The invariant of a shutdown -/

/-- A calm step that leaves the `settle` calls alone keeps the invariant. -/
theorem ShutdownInv.of_calm (h : ShutdownInv s) (hcalm : Calm s t)
    (hsettlers : t.settlers = s.settlers)
    (hbatch : ∀ id batch program, t.flushing = some ⟨id, batch, some program⟩ → batch ≠ []) :
    ShutdownInv t :=
  ⟨fun k phase hk => (h.settled k phase (hsettlers ▸ hk)).of_calm hcalm, hbatch⟩

/-- Moving one `settle` call on keeps the invariant if that call is on its way. -/
theorem ShutdownInv.setSettler (h : ShutdownInv s) {k : ℕ} {settler : Settler}
    (hsettler : settler.byStop = true → s.Settled settler.phase) :
    ShutdownInv (s.setSettler k settler) := by
  refine ⟨fun j phase hj => ?_, h.batch_ne_nil⟩
  change s.Settled phase
  rw [WriterState.setSettler, OrderedMap.get?_set] at hj
  split at hj
  · cases hj
    exact hsettler rfl
  · exact h.settled j phase hj

/-- `flush()` keeps the invariant. -/
theorem ShutdownInv.flush (hbatch : 1 ≤ o.maxBatchSize) (h : ShutdownInv s) :
    ShutdownInv (s.flush sha256 o) := by
  rcases flush_cases sha256 o s with ⟨hsame, -⟩ | ⟨-, hsettlers, -, hbegun⟩
  · rw [hsame]
    exact h
  · refine h.of_calm (calm_flush s) hsettlers fun id batch program hflushing => ?_
    rcases hbegun with ⟨id', program', -, hne, hbegun⟩ | ⟨id', hended, -⟩
    · rw [hbegun] at hflushing
      cases hflushing
      rw [Ne, List.take_eq_nil_iff]
      exact fun hor => hor.elim (fun h0 => by omega) hne
    · rw [hended] at hflushing
      cases hflushing

/-- The loop of `settle` keeps the invariant. -/
theorem ShutdownInv.settleLoop (hbatch : 1 ≤ o.maxBatchSize) (h : ShutdownInv s) {byStop : Bool}
    (hanew : byStop = true → s.FlushesAnew) (k : ℕ) :
    ShutdownInv (s.settleLoop sha256 o k byStop) := by
  unfold WriterState.settleLoop
  split
  · rename_i hpos
    have hne : s.queue ≠ [] := List.length_pos_iff.mp hpos
    dsimp only
    split
    · rename_i f hf
      exact (h.flush hbatch).setSettler fun hstop => settled_flush hbatch h (hanew hstop) hne hf
    · exact h.flush hbatch
  · rename_i hzero
    have hnil : s.queue = [] := List.length_eq_zero_iff.mp (by omega)
    exact h.setSettler fun _ => hnil

/-- `record` keeps the invariant when there is room for one more command. -/
theorem ShutdownInv.record (hbatch : 1 ≤ o.maxBatchSize) (h : ShutdownInv s)
    (command : RecordAuditEventCommand)
    (hroom : s.queue.length < o.maxQueueSize →
      ∀ x ∈ s.settlers.values, x.byStop = true → s.RoomFor x.phase) :
    ShutdownInv (s.record sha256 o command).2 := by
  unfold WriterState.record
  split
  · exact h.of_calm (calm_of_same rfl rfl rfl) rfl h.batch_ne_nil
  · rename_i hfull
    have hpush : ShutdownInv { s with
        queue := s.queue ++ [command]
        enqueuedTotal := s.enqueuedTotal + 1
        accepted := s.accepted ++ [command] } := by
      refine ⟨fun k phase hk => ?_, h.batch_ne_nil⟩
      have hphase := hroom (by omega) _ (OrderedMap.mem_values_iff.mpr ⟨k, hk⟩) rfl
      cases phase with
      | awaitingFlush before flush =>
        change (s.queue ++ [command]).length < before + s.stillToRemove flush
        rw [List.length_append]
        exact hphase
      | awaitingLast flush => exact hphase.elim
      | resolved accepted => exact h.settled k _ hk
    dsimp only
    split
    · exact hpush.flush hbatch
    · exact hpush

/-- A `settle` call that goes on stays on its way: the flush it awaited has made the queue
shorter, so it goes round its loop again, or it is behind its loop and the queue is empty. -/
theorem ShutdownInv.resume (hbatch : 1 ≤ o.maxBatchSize) (hinv : Inv sha256 conflict o s)
    (h : ShutdownInv s) {k : ℕ}
    (hanew : ∀ x ∈ s.settlers.get? k, x.byStop = true → inLoop x.phase = true → s.FlushesAnew)
    (ht : s.resume sha256 o k = some t) : ShutdownInv t := by
  unfold WriterState.resume at ht
  split at ht
  · rename_i byStop before flush hk
    split at ht
    · rename_i hover
      have hshorter : byStop = true → s.queue.length < before := by
        rintro rfl
        have hsettled : s.queue.length < before + s.stillToRemove flush := h.settled k _ hk
        rwa [stillToRemove_eq_zero_of_isOver hover] at hsettled
      split at ht
      · rename_i hge
        cases ht
        exact h.setSettler fun hstop => absurd (hshorter hstop) (by omega)
      · cases ht
        exact h.settleLoop hbatch (fun hstop => hanew _ hk hstop rfl) k
    · cases ht
  · rename_i byStop flush hk
    split at ht
    · cases ht
      refine h.setSettler ?_
      rintro hstop
      have hstop : byStop = true := hstop
      have hempty : s.queue = [] := h.settled k (.awaitingLast flush) (hstop ▸ hk)
      change s.accepted <+: _
      rw [hinv.ledger.accepted, hempty, List.append_nil]
    · cases ht
  · cases ht

/-- The end of a flush is calm: what it removes was counted as still to be removed. -/
theorem calm_drained {id : ℕ} {batch : List RecordAuditEventCommand}
    {program : AuditProgram DrainOutcome} {outcome : DrainOutcome}
    (hflushing : s.flushing = some ⟨id, batch, some program⟩) (hbatch : batch <+: s.queue) :
    Calm s { s.finish o batch outcome with flushing := some ⟨id, [], none⟩ } := by
  have hle := hbatch.length_le
  refine ⟨fun flush => ?_, fun hempty => ?_, ?_⟩
  · have hremoved : s.stillToRemove flush ≤ batch.length := by
      simp only [stillToRemove, hflushing]
      split
      · exact le_rfl
      · exact Nat.zero_le _
    simp only [queue_finish, List.length_drop]
    omega
  · simp [hempty]
  · simp only [finished_finish]
    exact List.prefix_append _ _

/-- Every step that meets the condition keeps the invariant. -/
theorem ShutdownInv.step (hbatch : 1 ≤ o.maxBatchSize) (hinv : Inv sha256 conflict o s)
    (h : ShutdownInv s) {e : WriterEvent} (hquiet : s.QuietShutdown o e)
    (ht : s.step sha256 conflict o e = some t) : ShutdownInv t := by
  cases e with
  | record command => cases ht; exact h.record hbatch command hquiet
  | execute command => cases ht; exact h.record hbatch command hquiet
  | flush => cases ht; exact h.flush hbatch
  | start =>
    cases ht
    split
    · exact h
    · exact h.of_calm (calm_of_same rfl rfl rfl) rfl h.batch_ne_nil
  | tick =>
    simp only [WriterState.step] at ht
    split at ht
    · cases ht; exact h.flush hbatch
    · cases ht
  | stop k =>
    simp only [WriterState.step] at ht
    split at ht
    · cases ht
    · cases ht
      have hstopped : ShutdownInv { s with stopped := true, timer := false } :=
        h.of_calm (calm_of_same rfl rfl rfl) rfl h.batch_ne_nil
      exact hstopped.settleLoop hbatch (fun _ => hquiet) k
  | settle k =>
    simp only [WriterState.step] at ht
    split at ht
    · cases ht
    · cases ht
      have hother : false = true → s.FlushesAnew := by rintro ⟨⟩
      exact h.settleLoop hbatch hother k
  | answer input =>
    simp only [WriterState.step] at ht
    split at ht
    · rename_i id batch q k hflushing
      obtain ⟨r, -, rfl⟩ := Option.map_eq_some_iff.mp ht
      refine h.of_calm ⟨fun flush => ?_, fun hempty => hempty, List.prefix_rfl⟩ rfl ?_
      · simp [stillToRemove, hflushing]
      · rintro id' batch' program ⟨⟩
        exact h.batch_ne_nil _ _ _ hflushing
    · cases ht
  | drained =>
    simp only [WriterState.step] at ht
    split at ht
    · rename_i id batch outcome hflushing
      cases ht
      have hprefix := (hinv.flight.flight id batch _ hflushing).2.1
      refine h.of_calm (calm_drained hflushing hprefix) (settlers_finish _ _) ?_
      rintro id' batch' program ⟨⟩
    · cases ht
  | cleared =>
    simp only [WriterState.step] at ht
    split at ht
    · rename_i id batch hflushing
      cases ht
      refine h.of_calm ⟨fun flush => ?_, fun hempty => hempty, List.prefix_rfl⟩ rfl ?_
      · simp [stillToRemove, hflushing]
      · rintro id' batch' program ⟨⟩
    · cases ht
  | resume k => exact h.resume hbatch hinv hquiet ht
  | others entries =>
    cases ht
    exact h.of_calm (calm_of_same rfl rfl rfl) rfl h.batch_ne_nil

/-- The invariant holds in every run that meets the condition. -/
theorem shutdownInv_of_run (hbatch : 1 ≤ o.maxBatchSize) {log : List AuditLogEntry}
    (hrun : RunWhile (WriterState.step sha256 conflict o) (QuietShutdown o) (initial log) s) :
    ShutdownInv s := by
  have hstart : ShutdownInv (initial log) :=
    ⟨(by rintro k phase ⟨⟩), (by rintro _ _ _ ⟨⟩)⟩
  have hboth := hrun.invariant (I := fun s => Inv sha256 conflict o s ∧ ShutdownInv s)
    ⟨inv_initial log, hstart⟩ fun _ _ _ h hquiet hstep =>
      ⟨h.1.step hstep, h.2.step hbatch h.1 hquiet hstep⟩
  exact hboth.2

/-! ## What `stop` promises -/

/-- Somebody's record arrives while `stop` awaits its first flush: the queue is as long as before,
and `stop` resolves. -/
def shutdownRace : List WriterEvent :=
  [.record sampleRegistration, .stop 0, .answer .served,
    .answer (.ambient <| ambientOf "a1" sampleTime), .answer .served,
    .record sampleLogin, .drained, .cleared, .resume 0, .resume 0]

/-- What the race ends in, with a writer that has the default options. -/
def shutdownRaced : WriterState :=
  (exec (WriterState.step sampleSha256 InMemoryAuditLogRepository.conflict .default) (initial [])
    shutdownRace).get (by decide +kernel)

/-- `stop` can resolve while a command accepted before is neither written nor reported. -/
theorem stop_leaves_queued :
    Run (WriterState.step sampleSha256 InMemoryAuditLogRepository.conflict .default) (initial [])
        shutdownRaced ∧
      shutdownRaced.settlers.get? 0 =
        some ⟨true, .resolved [sampleRegistration, sampleLogin]⟩ ∧
      shutdownRaced.queue = [sampleLogin] ∧
      ∀ f ∈ shutdownRaced.finished, sampleLogin ∉ f.batch :=
  ⟨runWhile_get _, by decide +kernel, by decide +kernel, by decide +kernel⟩

/-- In every run that meets the condition, what was accepted when `stop` resolved is, in order,
what the first finished flushes held; and every finished flush has written its batch to the log or
is reported. -/
theorem stop_settles_accepted (hbatch : 1 ≤ o.maxBatchSize) {log : List AuditLogEntry}
    (hrun : RunWhile (WriterState.step sha256 conflict o) (QuietShutdown o) (initial log) s)
    {k : ℕ} {accepted : List RecordAuditEventCommand}
    (hk : s.settlers.get? k = some ⟨true, .resolved accepted⟩) :
    accepted <+: s.finished.flatMap (fun f => f.batch) ∧
      ∀ f ∈ s.finished,
        (∃ entries, List.Forall₂ (BuiltFor sha256) f.batch entries ∧
          ∀ entry ∈ entries, entry ∈ s.store.log) ∨
        ∃ r ∈ s.failures, r.commands = f.batch := by
  obtain ⟨hledger, hflight⟩ := inv_of_run hrun.toRun
  refine ⟨(shutdownInv_of_run hbatch hrun).settled k _ hk, fun f hf => ?_⟩
  cases houtcome : f.outcome with
  | written entries =>
    refine .inl ⟨entries, hledger.built f hf entries houtcome, fun entry hentry => ?_⟩
    have hown : entry ∈ s.store.ownEntries := by
      rw [hflight.own, List.mem_append, List.mem_flatMap]
      exact .inl ⟨f, hf, by rw [houtcome]; exact hentry⟩
    exact AuditStore.mem_log_of_mem_ownEntries hown
  | failed lastError =>
    right
    rw [hledger.failures]
    exact ⟨_, List.mem_filterMap.mpr ⟨f, hf, by rw [FinishedFlush.report, houtcome]⟩, rfl⟩

/-- The surroundings of a flush that writes both sample entries. -/
def sampleAmbient : Ambient :=
  ⟨fun n => if n = 0 then "a1" else "a2", fun n => if n = 0 then sampleTime else sampleTimeLater⟩

/-- A shutdown that meets the condition: a third command arrives while two are being written, and
the flush that is to write it fails. -/
def quietShutdown : List WriterEvent :=
  [.record sampleRegistration, .record sampleLogin, .stop 0, .answer .served,
    .answer (.ambient sampleAmbient), .answer .served,
    .record sampleLogin, .drained, .cleared, .resume 0,
    .answer (.throws (.error "connection lost")), .answer (.throws (.error "connection lost")),
    .answer (.throws (.error "connection lost")), .drained, .cleared, .resume 0, .resume 0]

/-- What the quiet shutdown ends in. -/
def quietlyShutdown : WriterState :=
  (execWhile (WriterState.step sampleSha256 InMemoryAuditLogRepository.conflict .default)
    (QuietShutdown .default) (initial []) quietShutdown).get (by decide +kernel)

/-- In the quiet shutdown the three commands are accounted for. -/
theorem stop_settles_accepted_sample :
    [sampleRegistration, sampleLogin, sampleLogin] <+:
      quietlyShutdown.finished.flatMap fun f => f.batch :=
  (@stop_settles_accepted sampleSha256 InMemoryAuditLogRepository.conflict .default
    quietlyShutdown (by decide) [] (runWhile_get _) 0
    [sampleRegistration, sampleLogin, sampleLogin] (by decide +kernel)).1

end WriterState

end Verixa
