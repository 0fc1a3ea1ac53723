import Verixa.Audit.AuditLogRepository
import Verixa.Audit.ChainIntegrity

/-!
# Recording audit events

`RecordAuditEvent.execute` appends one entry and retries when it loses the race for the head of
the log; `recordAuditEventBatch` appends a burst of entries once.  Both are programs over the
repository's calls.  They turn every failure into a report and an empty result.

The recorders differ in when they retry and in what they return.  What they have in common is a
contract (`recording`): the log keeps an invariant, each thread relies on the others writing under
their own name only, and a thread's own entries at the end are those it returns.  Both are safe
under it for every invariant of logs that a guarded append keeps (`KeptByAppends`).
-/

namespace Verixa

open Concurrency

/-- An event offered for recording; `occurredAt := some none` is an invalid date. -/
structure RecordAuditEventCommand where
  action : AuditAction
  actorId : Option String
  subjectId : Option String
  metadata : Option StringRecord
  occurredAt : Option (Option Date)
  deriving DecidableEq

/-- Default ceiling on attempts of one `execute` call. -/
def DEFAULT_MAX_ATTEMPTS : ℕ := 3

/-- The metadata that is recorded: the bag itself, or a marker when it breaks a bound. -/
def metadataFor (command : RecordAuditEventCommand) : StringRecord :=
  match AuditMetadata.create (command.metadata.getD OrderedMap.empty).toUnknown with
  | .ok values => values
  | .error error => AuditMetadata.rejected (rejectionReasonOf error)

section Recorders

variable (sha256 : String → String)

/-- Build an entry for each command, each linked to the one before it and the first to `tail`.
The entries take their ids and clock readings from `ambient`, starting at the `k`-th. -/
def linkEntries (ambient : Ambient) :
    ℕ → Option AuditLogEntry → List RecordAuditEventCommand → Except RangeError (List AuditLogEntry)
  | _, _, [] => .ok []
  | k, tail, command :: commands => do
    let entry ← AuditLogEntry.append sha256 (ambient.newId k) (ambient.now k)
      { action := command.action
        actorId := command.actorId
        subjectId := command.subjectId
        metadata := some (command.metadata.getD OrderedMap.empty)
        previous := tail
        occurredAt := command.occurredAt }
    let entries ← linkEntries ambient (k + 1) (some entry) commands
    return entry :: entries

namespace RecordAuditEvent

/-- The `catch` of `execute`. -/
def abandon (error : Failure) : AuditProgram (Option AuditLogEntry) := do
  onError error
  return none

/-- The loop of `execute`, with the number of attempts that remain. -/
def attemptLoop (command : RecordAuditEventCommand) (maxAttempts : ℕ) :
    ℕ → AuditProgram (Option AuditLogEntry)
  | 0 => abandon
      (.error s!"Audit append lost {maxAttempts} consecutive chain races and was abandoned.")
  | remaining + 1 => do
    match ← findLatest with
    | .error error => abandon error
    | .ok previous =>
      let ambient ← ambient
      match AuditLogEntry.append sha256 (ambient.newId 0) (ambient.now 0)
        { action := command.action
          actorId := command.actorId
          subjectId := command.subjectId
          metadata := some (metadataFor command)
          previous := previous
          occurredAt := command.occurredAt } with
      | .error error => abandon (.error error.message)
      | .ok entry =>
        match ← append entry (headHash previous) with
        | .error error => abandon error
        | .ok (.ok ()) => return some entry
        -- lost the race: the next attempt reads the head again
        | .ok (.error _) => attemptLoop command maxAttempts remaining

/-- Appends one entry to the audit log. -/
def execute (maxAttempts : ℕ) (command : RecordAuditEventCommand) :
    AuditProgram (Option AuditLogEntry) :=
  attemptLoop sha256 command maxAttempts maxAttempts

end RecordAuditEvent

/-- Records a burst of events as one atomic chain extension. -/
def recordAuditEventBatch (commands : List RecordAuditEventCommand) :
    AuditProgram (List AuditLogEntry) := do
  if commands.length = 0 then return []
  else
    match ← findLatest with
    | .error error =>
      onError error
      return []
    | .ok previous =>
      match linkEntries sha256 (← ambient) 0 previous commands with
      | .error error =>
        onError (.error error.message)
        return []
      | .ok entries =>
        match ← appendMany entries (headHash previous) with
        | .error error =>
          onError error
          return []
        | .ok (.error error) =>
          onError (.conflict error)
          return []
        | .ok (.ok ()) => return entries

/-! ## Linked entries -/

/-- The entry was built for the command. -/
structure BuiltFor (command : RecordAuditEventCommand) (entry : AuditLogEntry) : Prop where
  action : entry.action = command.action.text
  actorId : entry.actorId = command.actorId
  subjectId : entry.subjectId = command.subjectId
  metadata : entry.metadata = command.metadata.getD OrderedMap.empty
  occurredAt : ∀ occurredAt, command.occurredAt = some occurredAt →
    some entry.occurredAt = occurredAt
  validHash : entry.hash = entry.recomputedHash sha256

variable {sha256}

/-- An entry appended with the command's fields was built for it. -/
theorem builtFor_of_append {id : String} {now : Date} {previous : Option AuditLogEntry}
    {command : RecordAuditEventCommand} {entry : AuditLogEntry}
    (h : AuditLogEntry.append sha256 id now
      { action := command.action
        actorId := command.actorId
        subjectId := command.subjectId
        metadata := some (command.metadata.getD OrderedMap.empty)
        previous := previous
        occurredAt := command.occurredAt } = .ok entry) : BuiltFor sha256 command entry := by
  obtain ⟨occurredAt, hat, -, hhash, hcontent⟩ := content_of_append h
  refine ⟨?_, ?_, ?_, ?_, ?_, hhash⟩
  · exact congrArg HashedProps.action hcontent
  · exact congrArg HashedProps.actorId hcontent
  · exact congrArg HashedProps.subjectId hcontent
  · exact congrArg HashedProps.metadata hcontent
  · intro given hgiven
    have hentry : entry.occurredAt = occurredAt := congrArg HashedProps.occurredAt hcontent
    rw [hentry, ← hat, hgiven, Option.getD_some]

/-- Linked entries are a verified run behind `tail`, one for each command in order. -/
theorem verifyChainFrom_linkEntries {ambient : Ambient} {k : ℕ} {tail : Option AuditLogEntry}
    {commands : List RecordAuditEventCommand} {entries : List AuditLogEntry}
    (h : linkEntries sha256 ambient k tail commands = .ok entries) :
    verifyChainFrom sha256 tail entries = none ∧
      List.Forall₂ (BuiltFor sha256) commands entries := by
  induction commands generalizing k tail entries with
  | nil =>
    cases h
    exact ⟨rfl, List.Forall₂.nil⟩
  | cons command commands ih =>
    simp only [linkEntries, bind, Except.bind] at h
    split at h
    · cases h
    · rename_i entry hentry
      split at h
      · cases h
      · rename_i rest hrest
        cases h
        obtain ⟨hchain, hbuilt⟩ := ih hrest
        refine ⟨verifyChainFrom_cons_eq_none_iff.mpr ⟨follows_of_append hentry, hchain⟩,
          List.Forall₂.cons ?_ hbuilt⟩
        exact builtFor_of_append hentry

/-! ## The contract of the recorders -/

/-- What concurrent recorders agree on: the log satisfies `I` and only grows, and each thread
counts on the others writing under their own names. -/
def recording (I : List AuditLogEntry → Prop) : Protocol AuditStore where
  inv s := I s.log
  rely i s t := s.log <+: t.log ∧ t.writtenBy i = s.writtenBy i
  rely_refl _ _ := ⟨List.prefix_rfl, rfl⟩
  rely_trans _ _ _ _ hst htu := ⟨hst.1.trans htu.1, htu.2.trans hst.2⟩

variable (sha256) in
/-- The repository's check lets a batch linked onto an entry of the log through only when the
append keeps `I`. -/
def KeptByAppends
    (conflict : List AuditLogEntry → List AuditLogEntry → String → Option ChainConflictError)
    (I : List AuditLogEntry → Prop) : Prop :=
  ∀ log previous entries, I log → (∀ p, previous = some p → p ∈ log) →
    verifyChainFrom sha256 previous entries = none →
    conflict log entries (headHash previous) = none → I (log ++ entries)

/-- The in-memory check keeps the log a verified chain. -/
theorem keptByAppends_conflict :
    KeptByAppends sha256 InMemoryAuditLogRepository.conflict
      fun log => verifyChain sha256 log = none :=
  fun _ _ _ hlog hprevious hentries hconflict =>
    InMemoryAuditLogRepository.verifyChain_append_of_conflict_eq_none hlog hprevious hentries
      hconflict

variable {conflict : List AuditLogEntry → List AuditLogEntry → String → Option ChainConflictError}
  {I : List AuditLogEntry → Prop} {i : ℕ}
  {allowed : ℕ → AuditStore → AuditRequest → AuditInput → Prop}
  {γ : Type} {post : AuditStore → γ → Prop} {s : AuditStore}

/-- Reading the head: what is found is an entry of the log and stays one. -/
theorem safe_findLatest {f : Except Failure (Option AuditLogEntry) → AuditProgram γ}
    (herror : ∀ t error, (recording I).rely i s t →
      Safe (recording I) (AuditStore.serve conflict) allowed i post (f (.error error)) t)
    (hfound : ∀ t previous, (recording I).rely i s t → (∀ p, previous = some p → p ∈ t.log) →
      Safe (recording I) (AuditStore.serve conflict) allowed i post (f (.ok previous)) t) :
    Safe (recording I) (AuditStore.serve conflict) allowed i post (findLatest >>= f) s := by
  intro t ω answer u ht hinv _ hserve
  obtain ⟨rfl, rfl | ⟨error, rfl⟩⟩ := serve_findLatest hserve
  · refine ⟨hinv, fun j _ => (recording I).rely_refl j u, hfound u _ ht fun p hp => ?_⟩
    exact List.mem_of_getLast? hp
  · exact ⟨hinv, fun j _ => (recording I).rely_refl j u, herror u error ht⟩

/-- Appending a batch that was linked onto an entry of the log. -/
theorem safe_appendMany (hkept : KeptByAppends sha256 conflict I) {entries : List AuditLogEntry}
    {previous : Option AuditLogEntry} (hprevious : ∀ p, previous = some p → p ∈ s.log)
    (hentries : verifyChainFrom sha256 previous entries = none)
    {f : Except Failure (Except ChainConflictError Unit) → AuditProgram γ}
    (hwritten : ∀ t, t.writtenBy i = s.writtenBy i ++ entries →
      Safe (recording I) (AuditStore.serve conflict) allowed i post (f (.ok (.ok ()))) t)
    (hlost : ∀ t answer, (recording I).rely i s t → answer ≠ .ok (.ok ()) →
      Safe (recording I) (AuditStore.serve conflict) allowed i post (f answer) t) :
    Safe (recording I) (AuditStore.serve conflict) allowed i post
      (appendMany entries (headHash previous) >>= f) s := by
  intro t ω answer u ht hinv _ hserve
  rcases serve_appendMany hserve with ⟨rfl, hnone, rfl⟩ | ⟨hanswer, rfl⟩
  · have hmem : ∀ p, previous = some p → p ∈ t.log := fun p hp =>
      ht.1.subset (hprevious p hp)
    have hown := ht.2
    refine ⟨?_, fun j hj => ⟨?_, ?_⟩, hwritten _ ?_⟩
    · change I _
      rw [AuditStore.log_write]
      exact hkept _ _ _ hinv hmem hentries hnone
    · rw [AuditStore.log_write]
      exact List.prefix_append _ _
    · exact AuditStore.writtenBy_write_of_ne _ (by simpa using hj.symm) _
    · rw [AuditStore.writtenBy_write_self, hown]
  · exact ⟨hinv, fun j _ => (recording I).rely_refl j u, hlost u answer ht hanswer⟩

/-- Looking at the surroundings. -/
theorem safe_ambient {f : Ambient → AuditProgram γ}
    (h : ∀ t answer, (recording I).rely i s t →
      Safe (recording I) (AuditStore.serve conflict) allowed i post (f answer) t) :
    Safe (recording I) (AuditStore.serve conflict) allowed i post (ambient >>= f) s := by
  intro t ω answer u ht hinv _ hserve
  obtain rfl := serve_ambient hserve
  exact ⟨hinv, fun j _ => (recording I).rely_refl j u, h u answer ht⟩

/-- Reporting an error. -/
theorem safe_onError {error : Failure} {f : Unit → AuditProgram γ}
    (h : ∀ t, (recording I).rely i s t →
      Safe (recording I) (AuditStore.serve conflict) allowed i post (f ()) t) :
    Safe (recording I) (AuditStore.serve conflict) allowed i post (onError error >>= f) s := by
  intro t ω answer u ht hinv _ hserve
  obtain rfl := serve_onError hserve
  exact ⟨hinv, fun j _ => ⟨List.prefix_rfl, rfl⟩, h _ ⟨ht.1, ht.2⟩⟩

/-- Counting a conflict. -/
theorem safe_countConflict {f : Unit → AuditProgram γ}
    (h : ∀ t, (recording I).rely i s t →
      Safe (recording I) (AuditStore.serve conflict) allowed i post (f ()) t) :
    Safe (recording I) (AuditStore.serve conflict) allowed i post (countConflict >>= f) s := by
  intro t ω answer u ht hinv _ hserve
  obtain rfl := serve_countConflict hserve
  exact ⟨hinv, fun j _ => ⟨List.prefix_rfl, rfl⟩, h _ ⟨ht.1, ht.2⟩⟩

/-! ## The recorders keep to it -/

/-- Returning what the thread has written. -/
theorem safe_return {a : γ} (entries : γ → List AuditLogEntry)
    (h : s.writtenBy i = entries a) :
    Safe (recording I) (AuditStore.serve conflict) allowed i (fun t a => t.writtenBy i = entries a)
      (pure a : AuditProgram γ) s :=
  fun _ ht _ => ht.2.trans h

/-- Giving up with nothing written. -/
theorem RecordAuditEvent.safe_abandon {error : Failure} (hidle : s.writtenBy i = []) :
    Safe (recording I) (AuditStore.serve conflict) allowed i
      (fun t result => t.writtenBy i = result.toList) (RecordAuditEvent.abandon error) s :=
  safe_onError fun _ ht => safe_return Option.toList (ht.2.trans hidle)

/-- `RecordAuditEvent.execute` keeps to the contract, and has written what it returns. -/
theorem RecordAuditEvent.safe_attemptLoop (hkept : KeptByAppends sha256 conflict I)
    (command : RecordAuditEventCommand) (maxAttempts remaining : ℕ)
    (hidle : s.writtenBy i = []) :
    Safe (recording I) (AuditStore.serve conflict) allowed i
      (fun t result => t.writtenBy i = result.toList)
      (RecordAuditEvent.attemptLoop sha256 command maxAttempts remaining) s := by
  induction remaining generalizing s with
  | zero => exact RecordAuditEvent.safe_abandon hidle
  | succ remaining ih =>
    refine safe_findLatest (fun t error ht => RecordAuditEvent.safe_abandon (ht.2.trans hidle)) ?_
    intro t previous ht hprevious
    have hidle_t := ht.2.trans hidle
    refine safe_ambient fun u ambient hu => ?_
    have hidle_u := hu.2.trans hidle_t
    split
    · exact RecordAuditEvent.safe_abandon hidle_u
    · rename_i entry hentry
      have hchain : verifyChainFrom sha256 previous [entry] = none :=
        verifyChainFrom_cons_eq_none_iff.mpr ⟨follows_of_append hentry, rfl⟩
      refine safe_appendMany hkept (fun p hp => hu.1.subset (hprevious p hp)) hchain ?_ ?_
      · intro v hv
        exact safe_return Option.toList (by rw [hv, hidle_u]; rfl)
      · intro v answer hv hanswer
        have hidle_v := hv.2.trans hidle_u
        match answer with
        | .error error => exact RecordAuditEvent.safe_abandon hidle_v
        | .ok (.ok ()) => exact absurd rfl hanswer
        | .ok (.error _) => exact ih hidle_v

/-- `recordAuditEventBatch` keeps to the contract, and has written what it returns. -/
theorem safe_recordAuditEventBatch (hkept : KeptByAppends sha256 conflict I)
    (commands : List RecordAuditEventCommand) (hidle : s.writtenBy i = []) :
    Safe (recording I) (AuditStore.serve conflict) allowed i
      (fun t result => t.writtenBy i = result) (recordAuditEventBatch sha256 commands) s := by
  have hgiveUp : ∀ t error, (recording I).rely i s t →
      Safe (recording I) (AuditStore.serve conflict) allowed i
        (fun t result => t.writtenBy i = result)
        (onError error >>= fun _ => (pure [] : AuditProgram (List AuditLogEntry))) t :=
    fun t error ht =>
      safe_onError fun u hu => safe_return id (hu.2.trans (ht.2.trans hidle))
  unfold recordAuditEventBatch
  split
  · exact safe_return id hidle
  · refine safe_findLatest (fun t error ht => hgiveUp t error ht) ?_
    intro t previous ht hprevious
    refine safe_ambient fun u ambient hu => ?_
    have hsu := (recording I).rely_trans i _ _ _ ht hu
    split
    · exact hgiveUp u _ hsu
    · rename_i entries hlinked
      refine safe_appendMany hkept (fun p hp => hu.1.subset (hprevious p hp))
        (verifyChainFrom_linkEntries hlinked).1 ?_ ?_
      · intro v hv
        exact safe_return id (by rw [hv, hsu.2, hidle]; rfl)
      · intro v answer hv hanswer
        have hsv := (recording I).rely_trans i _ _ _ hsu hv
        match answer with
        | .error error => exact hgiveUp v _ hsv
        | .ok (.ok ()) => exact absurd rfl hanswer
        | .ok (.error error) => exact hgiveUp v _ hsv

end Recorders

/-! ## Sample commands -/

/-- The command behind the first sample entry. -/
def sampleRegistration : RecordAuditEventCommand :=
  ⟨.userRegistered, some "u1", some "u1", some sampleMetadata, none⟩

/-- The command behind the second. -/
def sampleLogin : RecordAuditEventCommand := ⟨.userLoginSucceeded, some "u1", none, none, none⟩

/-- A surrounding that hands out one id and one clock reading. -/
def ambientOf (id : String) (now : Date) : Ambient := ⟨fun _ => id, fun _ => now⟩

example : linkEntries sampleSha256 (ambientOf "a2" sampleTimeLater) 0 (some sampleGenesis)
    [sampleLogin] = .ok [sampleSecond] := by
  decide +kernel

end Verixa
