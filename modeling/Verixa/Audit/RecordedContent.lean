import Verixa.Audit.BatchedAuditWriter

/-!
# What the recorders append for a command

`RecordAuditEvent.execute` puts the metadata of a command through `metadataFor`, which keeps the
bounds of `AuditMetadata.create`; `recordAuditEventBatch` and the flushes of the batched writer
append the metadata as they are.  The two agree on a command exactly when its metadata pass
`create` and have no property `__proto__`, which `create` loses, or when nothing is appended for
it (`batch_content_iff`).
-/

namespace Verixa

open Concurrency

/-! ## Contents -/

/-- What an entry says of the event it was appended for. -/
structure AuditContent where
  action : String
  actorId : Option String
  subjectId : Option String
  metadata : StringRecord
  occurredAt : Date
  deriving DecidableEq

/-- The content of an entry. -/
def AuditLogEntry.content (entry : AuditLogEntry) : AuditContent :=
  ⟨entry.action, entry.actorId, entry.subjectId, entry.metadata, entry.occurredAt⟩

/-- The metadata of a command, `command.metadata ?? {}`. -/
def RecordAuditEventCommand.bag (command : RecordAuditEventCommand) : StringRecord :=
  command.metadata.getD OrderedMap.empty

/-- The content is that of the command, with the given metadata and at the given reading of the
clock. -/
def ContentOf (command : RecordAuditEventCommand) (metadata : StringRecord) (now : Date)
    (content : AuditContent) : Prop :=
  ∃ occurredAt, command.occurredAt.getD (some now) = some occurredAt ∧
    content = ⟨command.action.text, command.actorId, command.subjectId, metadata, occurredAt⟩

/-! ## What the programs append -/

/-- The clock shows the given time whenever it is read. -/
def ClockShows (now : Date) : (q : AuditRequest) → q.Answer → Prop
  | .ambient, surroundings => ∀ k, surroundings.now k = now
  | _, _ => True

/-- The program offers the entries to the repository, whatever its calls are answered with while
the clock shows the given time. -/
def Offers {α : Type} (now : Date) (p : AuditProgram α) (entries : List AuditLogEntry) : Prop :=
  ∃ expected, p.Makes (ClockShows now) (.appendMany entries expected)

/-- `RecordAuditEvent.execute` appends the entry for the command. -/
def ExecuteAppends (sha256 : String → String) (now : Date) (command : RecordAuditEventCommand)
    (entry : AuditLogEntry) : Prop :=
  ∃ maxAttempts, Offers now (RecordAuditEvent.execute sha256 maxAttempts command) [entry]

/-- `recordAuditEventBatch`, or a flush of the batched writer, appends the entry for the `i`-th
command of a batch. -/
def BatchAppends (sha256 : String → String) (now : Date) (commands : List RecordAuditEventCommand)
    (i : ℕ) (entry : AuditLogEntry) : Prop :=
  ∃ entries, entries[i]? = some entry ∧
    (Offers now (recordAuditEventBatch sha256 commands) entries ∨
      ∃ maxFlushAttempts, Offers now (drainLoop sha256 commands maxFlushAttempts none) entries)

section Offers

variable {α : Type} {sha256 : String → String} {now : Date} {entries : List AuditLogEntry}

/-- A program that appends offers these entries, and what it offers after an answer. -/
theorem offers_call_iff {q : AuditRequest} {k : q.Answer → AuditProgram α} :
    Offers now (.call q k) entries ↔
      (∃ expected, q = .appendMany entries expected) ∨
        ∃ r, ClockShows now q r ∧ Offers now (k r) entries := by
  constructor
  · rintro ⟨expected, h⟩
    rcases Program.makes_call_iff.mp h with heq | ⟨r, hr, hmakes⟩
    · exact .inl ⟨expected, heq.symm⟩
    · exact .inr ⟨r, hr, expected, hmakes⟩
  · rintro (⟨expected, rfl⟩ | ⟨r, hr, expected, hmakes⟩)
    · exact ⟨expected, .here⟩
    · exact ⟨expected, .later hr hmakes⟩

theorem not_offers_ret {a : α} : ¬ Offers now (Program.ret a) entries :=
  fun ⟨_, h⟩ => Program.not_makes_ret h

/-- Reporting an error offers nothing. -/
theorem offers_onError {error : Failure} {k : Unit → AuditProgram α} :
    Offers now (onError error >>= k) entries ↔ Offers now (k ()) entries := by
  refine Iff.trans (offers_call_iff (q := .onError error)) ?_
  simp only [reduceCtorEq, exists_false, false_or]
  exact ⟨fun ⟨_, _, h⟩ => h, fun h => ⟨(), trivial, h⟩⟩

/-- Counting a conflict offers nothing. -/
theorem offers_countConflict {k : Unit → AuditProgram α} :
    Offers now (countConflict >>= k) entries ↔ Offers now (k ()) entries := by
  refine Iff.trans (offers_call_iff (q := .countConflict)) ?_
  simp only [reduceCtorEq, exists_false, false_or]
  exact ⟨fun ⟨_, _, h⟩ => h, fun h => ⟨(), trivial, h⟩⟩

/-- Reading the head offers nothing. -/
theorem offers_findLatest {k : Except Failure (Option AuditLogEntry) → AuditProgram α} :
    Offers now (findLatest >>= k) entries ↔ ∃ found, Offers now (k found) entries := by
  refine Iff.trans (offers_call_iff (q := .findLatest)) ?_
  simp only [reduceCtorEq, exists_false, false_or]
  exact ⟨fun ⟨found, _, h⟩ => ⟨found, h⟩, fun ⟨found, h⟩ => ⟨found, trivial, h⟩⟩

/-- Looking at the surroundings offers nothing. -/
theorem offers_ambient {k : Ambient → AuditProgram α} :
    Offers now (ambient >>= k) entries ↔
      ∃ surroundings : Ambient, (∀ j, surroundings.now j = now) ∧
        Offers now (k surroundings) entries := by
  refine Iff.trans (offers_call_iff (q := .ambient)) ?_
  simp only [reduceCtorEq, exists_false, false_or]
  exact Iff.rfl

/-- Appending offers the entries, and what is offered afterwards. -/
theorem offers_appendMany {batch : List AuditLogEntry} {expected : String}
    {k : Except Failure (Except ChainConflictError Unit) → AuditProgram α} :
    Offers now (appendMany batch expected >>= k) entries ↔
      entries = batch ∨ ∃ answer, Offers now (k answer) entries := by
  refine Iff.trans (offers_call_iff (q := .appendMany batch expected)) (or_congr ?_ ?_)
  · simp [eq_comm]
  · exact ⟨fun ⟨answer, _, h⟩ => ⟨answer, h⟩, fun ⟨answer, h⟩ => ⟨answer, trivial, h⟩⟩

end Offers

section Contents

variable {sha256 : String → String} {now : Date} {entry : AuditLogEntry}
  {entries : List AuditLogEntry} {command : RecordAuditEventCommand}
  {commands : List RecordAuditEventCommand}

/-- The content of an entry that was appended. -/
theorem contentOf_append {id : String} {metadata : StringRecord} {previous : Option AuditLogEntry}
    (h : AuditLogEntry.append sha256 id now
      { action := command.action
        actorId := command.actorId
        subjectId := command.subjectId
        metadata := some metadata
        previous := previous
        occurredAt := command.occurredAt } = .ok entry) :
    ContentOf command metadata now entry.content := by
  obtain ⟨occurredAt, hat, -, -, hcontent⟩ := content_of_append h
  refine ⟨occurredAt, hat, ?_⟩
  rw [AuditLogEntry.content]
  simp only [congrArg HashedProps.action hcontent, congrArg HashedProps.actorId hcontent,
    congrArg HashedProps.subjectId hcontent, congrArg HashedProps.metadata hcontent,
    congrArg HashedProps.occurredAt hcontent, Option.getD_some]

variable (sha256) in
/-- A command whose date is not invalid has an entry appended. -/
theorem exists_append (hdate : command.occurredAt ≠ some none) (id : String) (now : Date)
    (metadata : StringRecord) (previous : Option AuditLogEntry) :
    ∃ entry, AuditLogEntry.append sha256 id now
      { action := command.action
        actorId := command.actorId
        subjectId := command.subjectId
        metadata := some metadata
        previous := previous
        occurredAt := command.occurredAt } = .ok entry := by
  cases hgiven : command.occurredAt with
  | none => exact ⟨_, rfl⟩
  | some given =>
    cases given with
    | none => exact absurd hgiven hdate
    | some date => exact ⟨_, rfl⟩

/-- Giving up offers nothing. -/
theorem not_offers_abandon {error : Failure} :
    ¬ Offers now (RecordAuditEvent.abandon error) entries := by
  intro h
  rw [RecordAuditEvent.abandon] at h
  exact absurd (offers_onError.mp h) not_offers_ret

/-- Every attempt of `execute` offers one entry, with the metadata that keep the bounds. -/
theorem content_of_offers_attemptLoop {maxAttempts remaining : ℕ}
    (h : Offers now (RecordAuditEvent.attemptLoop sha256 command maxAttempts remaining) entries) :
    ∃ entry, entries = [entry] ∧ ContentOf command (metadataFor command) now entry.content := by
  induction remaining with
  | zero => exact absurd h not_offers_abandon
  | succ remaining ih =>
    obtain ⟨found, hfound⟩ := offers_findLatest.mp h
    cases found with
    | error error => exact absurd hfound not_offers_abandon
    | ok previous =>
      obtain ⟨surroundings, hclock, hlinked⟩ := offers_ambient.mp hfound
      rw [hclock] at hlinked
      split at hlinked
      · exact absurd hlinked not_offers_abandon
      · rename_i entry happend
        rcases offers_appendMany.mp hlinked with rfl | ⟨answer, hanswer⟩
        · exact ⟨entry, rfl, contentOf_append happend⟩
        · match answer with
          | .error error => exact absurd hanswer not_offers_abandon
          | .ok (.ok ()) => exact absurd hanswer not_offers_ret
          | .ok (.error _) => exact ih hanswer

/-- `execute` appends the content of the command, with the metadata that keep the bounds. -/
theorem content_of_executeAppends (h : ExecuteAppends sha256 now command entry) :
    ContentOf command (metadataFor command) now entry.content := by
  obtain ⟨maxAttempts, hoffers⟩ := h
  obtain ⟨entry', hentry, hcontent⟩ := content_of_offers_attemptLoop hoffers
  obtain rfl := List.head_eq_of_cons_eq hentry
  exact hcontent

/-- Entries that are linked carry the contents of their commands, with the metadata as they are. -/
theorem content_of_linkEntries {surroundings : Ambient} (hclock : ∀ j, surroundings.now j = now)
    {k : ℕ} {tail : Option AuditLogEntry}
    (h : linkEntries sha256 surroundings k tail commands = .ok entries) :
    List.Forall₂ (fun command entry => ContentOf command command.bag now entry.content)
      commands entries := by
  induction commands generalizing k tail entries with
  | nil =>
    cases h
    exact .nil
  | cons command commands ih =>
    simp only [linkEntries, bind, Except.bind] at h
    split at h
    · cases h
    · rename_i entry hentry
      split at h
      · cases h
      · rename_i rest hrest
        cases h
        rw [hclock] at hentry
        exact .cons (contentOf_append hentry) (ih hrest)

/-- A batch offers entries with the metadata of the commands as they are. -/
theorem content_of_offers_batch
    (h : Offers now (recordAuditEventBatch sha256 commands) entries) :
    List.Forall₂ (fun command entry => ContentOf command command.bag now entry.content)
      commands entries := by
  unfold recordAuditEventBatch at h
  split at h
  · exact absurd h not_offers_ret
  obtain ⟨found, hfound⟩ := offers_findLatest.mp h
  cases found with
  | error error => exact absurd (offers_onError.mp hfound) not_offers_ret
  | ok previous =>
    obtain ⟨surroundings, hclock, hlinked⟩ := offers_ambient.mp hfound
    split at hlinked
    · exact absurd (offers_onError.mp hlinked) not_offers_ret
    · rename_i linked hlink
      rcases offers_appendMany.mp hlinked with rfl | ⟨answer, hanswer⟩
      · exact content_of_linkEntries hclock hlink
      · match answer with
        | .error error => exact absurd (offers_onError.mp hanswer) not_offers_ret
        | .ok (.ok ()) => exact absurd hanswer not_offers_ret
        | .ok (.error _) => exact absurd (offers_onError.mp hanswer) not_offers_ret

/-- A flush offers entries with the metadata of the commands as they are. -/
theorem content_of_offers_drainLoop {remaining : ℕ} {lastError : Option Failure}
    (h : Offers now (drainLoop sha256 commands remaining lastError) entries) :
    List.Forall₂ (fun command entry => ContentOf command command.bag now entry.content)
      commands entries := by
  induction remaining generalizing lastError with
  | zero => exact absurd h not_offers_ret
  | succ remaining ih =>
    obtain ⟨found, hfound⟩ := offers_findLatest.mp h
    cases found with
    | error error => exact ih hfound
    | ok previous =>
      obtain ⟨surroundings, hclock, hlinked⟩ := offers_ambient.mp hfound
      split at hlinked
      · exact ih hlinked
      · rename_i linked hlink
        rcases offers_appendMany.mp hlinked with rfl | ⟨answer, hanswer⟩
        · exact content_of_linkEntries hclock hlink
        · match answer with
          | .error error => exact ih hanswer
          | .ok (.ok ()) => exact absurd hanswer not_offers_ret
          | .ok (.error _) => exact ih (offers_countConflict.mp hanswer)

/-- Batches append the contents of their commands, with the metadata as they are. -/
theorem content_of_batchAppends {i : ℕ} (hcommand : commands[i]? = some command)
    (h : BatchAppends sha256 now commands i entry) :
    ContentOf command command.bag now entry.content := by
  obtain ⟨entries, hentry, hoffers⟩ := h
  have hcontents : List.Forall₂ (fun command entry =>
      ContentOf command command.bag now entry.content) commands entries := by
    rcases hoffers with hbatch | ⟨maxFlushAttempts, hflush⟩
    · exact content_of_offers_batch hbatch
    · exact content_of_offers_drainLoop hflush
  obtain ⟨hi, rfl⟩ := List.getElem?_eq_some_iff.mp hcommand
  obtain ⟨hi', rfl⟩ := List.getElem?_eq_some_iff.mp hentry
  exact hcontents.get hi hi'

variable (sha256 now) in
/-- Every command whose date is not invalid is appended by `execute`. -/
theorem exists_executeAppends (hdate : command.occurredAt ≠ some none) :
    ∃ entry, ExecuteAppends sha256 now command entry := by
  obtain ⟨entry, hentry⟩ := exists_append sha256 hdate "" now (metadataFor command) none
  refine ⟨entry, 1, offers_findLatest.mpr ⟨.ok none, ?_⟩⟩
  refine offers_ambient.mpr ⟨⟨fun _ => "", fun _ => now⟩, fun _ => rfl, ?_⟩
  rw [hentry]
  exact offers_appendMany.mpr (.inl rfl)

variable (sha256 now) in
/-- It is appended by a batch of its own, too. -/
theorem exists_batchAppends (hdate : command.occurredAt ≠ some none) :
    ∃ entry, BatchAppends sha256 now [command] 0 entry := by
  obtain ⟨entry, hentry⟩ := exists_append sha256 hdate "" now command.bag none
  refine ⟨entry, [entry], rfl, .inl (offers_findLatest.mpr ⟨.ok none, ?_⟩)⟩
  refine offers_ambient.mpr ⟨⟨fun _ => "", fun _ => now⟩, fun _ => rfl, ?_⟩
  have hlinked : linkEntries sha256 ⟨fun _ => "", fun _ => now⟩ 0 none [command] = .ok [entry] := by
    simp only [linkEntries, RecordAuditEventCommand.bag] at hentry ⊢
    rw [hentry]
    rfl
  rw [hlinked]
  exact offers_appendMany.mpr (.inl rfl)

end Contents

/-! ## The bounds -/

/-- The metadata of the command pass `AuditMetadata.create`, which loses nothing of them. -/
def KeepsBounds (command : RecordAuditEventCommand) : Prop :=
  (∃ values, AuditMetadata.create command.bag.toUnknown = .ok values) ∧
    command.bag.get? protoKey = none

/-- Assign the pairs one after another. -/
def assignAll (values : StringRecord) (pairs : List (String × String)) : StringRecord :=
  pairs.foldl (fun values pair => values.assign pair.1 pair.2) values

/-- What the loop of `create` makes of texts that pass. -/
theorem createLoop_eq_ok {pairs : List (String × String)} {values result : StringRecord}
    (h : AuditMetadata.createLoop (pairs.map fun pair => (pair.1, .string pair.2)) values =
      .ok result) : result = assignAll values pairs := by
  induction pairs generalizing values with
  | nil =>
    cases h
    rfl
  | cons pair pairs ih =>
    rw [List.map_cons, AuditMetadata.createLoop] at h
    split at h
    · cases h
    · rename_i text htext
      have htext' : text = pair.2 := by
        simp only [AuditMetadata.checkField] at htext
        split at htext
        · cases htext
        split at htext
        · cases htext
        split at htext
        · cases htext
        · cases htext
          rfl
      rw [ih h, htext']
      rfl

/-- A key that no pair has keeps its value. -/
theorem get?_assignAll_protoKey (values : StringRecord) (pairs : List (String × String)) :
    (assignAll values pairs).get? protoKey = values.get? protoKey := by
  induction pairs generalizing values with
  | nil => rfl
  | cons pair pairs ih =>
    change (assignAll (values.assign pair.1 pair.2) pairs).get? protoKey = _
    rw [ih, StringRecord.get?_assign, if_neg]
    rintro ⟨hne, heq⟩
    exact hne heq

/-- Assigning new keys other than `__proto__` puts their pairs at the end. -/
theorem entries_assignAll {values : StringRecord} {pairs : List (String × String)}
    (hnodup : ((values.entries ++ pairs).map Prod.fst).Nodup)
    (hproto : protoKey ∉ pairs.map Prod.fst) :
    (assignAll values pairs).entries = values.entries ++ pairs := by
  induction pairs generalizing values with
  | nil => simp [assignAll]
  | cons pair pairs ih =>
    simp only [List.map_cons, List.mem_cons, not_or] at hproto
    have hnew : pair.1 ∉ values.entries.map Prod.fst := by
      intro hmem
      rw [List.map_append, List.map_cons, List.nodup_append] at hnodup
      exact hnodup.2.2 _ hmem _ List.mem_cons_self rfl
    have hassign : (values.assign pair.1 pair.2).entries = values.entries ++ [pair] := by
      rw [StringRecord.assign, if_neg (Ne.symm hproto.1)]
      exact OrderedMap.upsertEntry_of_not_mem hnew
    change (assignAll (values.assign pair.1 pair.2) pairs).entries = _
    rw [ih _ hproto.2, hassign, List.append_assoc]
    · rfl
    · rw [hassign, List.append_assoc]
      exact hnodup

/-- A map is the list of its entries. -/
theorem eq_of_entries_eq {m m' : StringRecord} (h : m.entries = m'.entries) : m = m' := by
  cases m
  cases m'
  cases h
  rfl

/-- The marker of a rejection passes. -/
theorem create_rejected (reason : AuditMetadataRejectionReason) :
    AuditMetadata.create (AuditMetadata.rejected reason).toUnknown =
      .ok (AuditMetadata.rejected reason) := by
  cases reason <;> decide +kernel

theorem metadataFor_eq (command : RecordAuditEventCommand) :
    metadataFor command =
      match AuditMetadata.create command.bag.toUnknown with
      | .ok values => values
      | .error error => AuditMetadata.rejected (rejectionReasonOf error) :=
  rfl

/-- The metadata that keep the bounds are the metadata as they are exactly when these do. -/
theorem metadataFor_eq_bag_iff (command : RecordAuditEventCommand) :
    metadataFor command = command.bag ↔ KeepsBounds command := by
  have hloop : ∀ values, AuditMetadata.create command.bag.toUnknown = .ok values →
      values = assignAll OrderedMap.empty command.bag.entries := by
    intro values hvalues
    rw [AuditMetadata.create] at hvalues
    split at hvalues
    · cases hvalues
    · exact createLoop_eq_ok hvalues
  constructor
  · intro hsame
    rw [metadataFor_eq] at hsame
    split at hsame
    · rename_i values hvalues
      refine ⟨⟨values, hvalues⟩, ?_⟩
      rw [← hsame, hloop values hvalues, get?_assignAll_protoKey]
      rfl
    · rename_i error herror
      rw [← hsame, create_rejected] at herror
      cases herror
  · rintro ⟨⟨values, hvalues⟩, hproto⟩
    have hmetadata : metadataFor command = values := by
      rw [metadataFor_eq, hvalues]
    have hkeys : protoKey ∉ command.bag.entries.map Prod.fst := by
      intro hmem
      obtain ⟨value, hvalue⟩ := OrderedMap.mem_keys_iff.mp hmem
      rw [hproto] at hvalue
      cases hvalue
    have hentries : (assignAll OrderedMap.empty command.bag.entries).entries =
        [] ++ command.bag.entries := entries_assignAll command.bag.nodup hkeys
    rw [hmetadata, hloop values hvalues]
    exact eq_of_entries_eq hentries

/-! ## The recorders compared -/

/-- A command with an empty key in its metadata. -/
def sampleUnbounded : RecordAuditEventCommand :=
  ⟨.userLoginFailed, some "u1", none, some (OrderedMap.empty.set "" "x"), none⟩

/-- Batches append metadata that `execute` replaces by a marker. -/
theorem batch_exceeds_bounds :
    ∃ entry entry', BatchAppends sampleSha256 sampleTime [sampleUnbounded] 0 entry ∧
      ExecuteAppends sampleSha256 sampleTime sampleUnbounded entry' ∧
      entry.metadata = OrderedMap.empty.set "" "x" ∧
      entry'.metadata = AuditMetadata.rejected .emptyKey ∧ entry.content ≠ entry'.content := by
  have hdate : sampleUnbounded.occurredAt ≠ some none := by decide
  obtain ⟨entry, hentry⟩ := exists_batchAppends sampleSha256 sampleTime hdate
  obtain ⟨entry', hentry'⟩ := exists_executeAppends sampleSha256 sampleTime hdate
  obtain ⟨occurredAt, -, hcontent⟩ := content_of_batchAppends rfl hentry
  obtain ⟨occurredAt', -, hcontent'⟩ := content_of_executeAppends hentry'
  have hmetadata : entry.metadata = sampleUnbounded.bag := congrArg AuditContent.metadata hcontent
  have hmetadata' : entry'.metadata = metadataFor sampleUnbounded :=
    congrArg AuditContent.metadata hcontent'
  have hmarker : metadataFor sampleUnbounded = AuditMetadata.rejected .emptyKey := by
    decide +kernel
  refine ⟨entry, entry', hentry, hentry', hmetadata, hmetadata'.trans hmarker, fun hsame => ?_⟩
  have hbag : sampleUnbounded.bag = AuditMetadata.rejected .emptyKey := by
    rw [← hmetadata, ← hmarker, ← hmetadata']
    exact congrArg AuditContent.metadata hsame
  revert hbag
  decide +kernel

/-- The content that batches append for a command is the one that `execute` would append exactly
when the metadata of the command keep the bounds, or nothing is appended since its date is
invalid. -/
theorem batch_content_iff (command : RecordAuditEventCommand) :
    (∀ sha256 now commands i entry entry', commands[i]? = some command →
      BatchAppends sha256 now commands i entry → ExecuteAppends sha256 now command entry' →
      entry.content = entry'.content) ↔
    KeepsBounds command ∨ command.occurredAt = some none := by
  rw [← metadataFor_eq_bag_iff]
  constructor
  · intro hsame
    by_contra hneither
    obtain ⟨hbounds, hdate⟩ := not_or.mp hneither
    obtain ⟨entry, hentry⟩ := exists_batchAppends (fun text => text) default hdate
    obtain ⟨entry', hentry'⟩ := exists_executeAppends (fun text => text) default hdate
    have heq := hsame _ _ _ _ _ _ rfl hentry hentry'
    obtain ⟨occurredAt, -, hcontent⟩ := content_of_batchAppends rfl hentry
    obtain ⟨occurredAt', -, hcontent'⟩ := content_of_executeAppends hentry'
    rw [hcontent, hcontent'] at heq
    exact hbounds (congrArg AuditContent.metadata heq).symm
  · intro hcondition sha256 now commands i entry entry' hcommand hentry hentry'
    obtain ⟨occurredAt, hat, hcontent⟩ := content_of_batchAppends hcommand hentry
    obtain ⟨occurredAt', hat', hcontent'⟩ := content_of_executeAppends hentry'
    rcases hcondition with hbounds | hdate
    · obtain rfl : occurredAt = occurredAt' := Option.some.inj (hat.symm.trans hat')
      rw [hcontent, hcontent', hbounds]
    · rw [hdate] at hat
      cases hat

end Verixa
