import Verixa.Concurrency.Program
import Verixa.Audit.AuditLogEntry

/-!
# The audit log repository

The in-memory repository keeps the log as the list of its entries.  `appendMany` is atomic: it
writes the whole batch or reports a `ChainConflictError`.  Its three checks together guarantee
that a batch linked onto a head read earlier is written only while that head is still the last
entry (`verifyChain_append_of_conflict_eq_none`): an entry written in between would carry the
very sequence number of the batch's first entry.  No property of the digest is needed for that.

The recorders use the repository through asynchronous calls (`AuditRequest`).  `AuditStore` is the
log together with who wrote what, and `AuditStore.serve` answers the calls.  Every call may also
fail: the repository may throw or report a conflict of its own accord, and then writes nothing.
-/

namespace Verixa

open Concurrency

/-- The append protocol's failure: someone else extended the chain first. -/
structure ChainConflictError where
  expectedPreviousHash : String
  actualPreviousHash : String
  deriving DecidableEq

/-- The text of a chain conflict. -/
def ChainConflictError.message (e : ChainConflictError) : String :=
  s!"Audit append expected the chain head to be {e.expectedPreviousHash} but found {e.actualPreviousHash}."

/-- What can be reported as gone wrong: a chain conflict, or an error known by its message. -/
inductive Failure where
  | conflict (error : ChainConflictError)
  | error (message : String)
  deriving DecidableEq

namespace InMemoryAuditLogRepository

/-- The most recent entry. -/
def findLatest (entries : List AuditLogEntry) : Option AuditLogEntry := entries.getLast?

/-- The first new entry whose sequence number is taken. -/
def sequenceConflict (stored : List AuditLogEntry) :
    List AuditLogEntry → Option ChainConflictError
  | [] => none
  | entry :: entries =>
    if stored.any fun existing => existing.sequence == entry.sequence then
      some ⟨entry.previousHash, headHash (findLatest stored)⟩
    else sequenceConflict stored entries

/-- The first new entry that does not link to the one before it. -/
def linkConflict (expected : String) : List AuditLogEntry → Option ChainConflictError
  | [] => none
  | entry :: entries =>
    if entry.previousHash ≠ expected then some ⟨expected, entry.previousHash⟩
    else linkConflict entry.hash entries

/-- The conflict `appendMany` reports, if any. -/
def conflict (stored entries : List AuditLogEntry) (expectedPreviousHash : String) :
    Option ChainConflictError :=
  if entries.length = 0 then none
  else if headHash (findLatest stored) ≠ expectedPreviousHash then
    some ⟨expectedPreviousHash, headHash (findLatest stored)⟩
  else (sequenceConflict stored entries).or (linkConflict expectedPreviousHash entries)

/-- Entries from `fromSequence` onward, at most `limit` of them. -/
def findFrom (entries : List AuditLogEntry) (fromSequence : ℤ) (limit : ℕ) :
    List AuditLogEntry :=
  (entries.filter fun entry => decide (fromSequence ≤ entry.sequence)).take limit

/-- Without a sequence conflict every new number is free. -/
theorem sequence_ne_of_sequenceConflict_eq_none {stored entries : List AuditLogEntry}
    (h : sequenceConflict stored entries = none) {entry existing : AuditLogEntry}
    (hentry : entry ∈ entries) (hexisting : existing ∈ stored) :
    existing.sequence ≠ entry.sequence := by
  induction entries with
  | nil => simp at hentry
  | cons e entries ih =>
    unfold sequenceConflict at h
    split at h
    · cases h
    · rename_i hfree
      rcases List.mem_cons.mp hentry with rfl | hrest
      · have hnone : ∀ e ∈ stored, e.sequence ≠ entry.sequence := by simpa using hfree
        exact hnone existing hexisting
      · exact ih h hrest

variable {sha256 : String → String}

/-- The number after an entry of an accepted log is taken, unless the entry is the last. -/
theorem exists_sequence_eq_of_mem {log : List AuditLogEntry} {p : AuditLogEntry}
    (hlog : verifyChain sha256 log = none) (hp : p ∈ log) (hlast : log.getLast? ≠ some p) :
    ∃ e ∈ log, e.sequence = p.sequence + 1 := by
  obtain ⟨i, hi, rfl⟩ := List.mem_iff_getElem.mp hp
  have hnext : i + 1 < log.length := by
    by_contra hnot
    have hi' : i = log.length - 1 := by omega
    exact hlast (by rw [List.getLast?_eq_getElem?, ← hi', List.getElem?_eq_getElem hi])
  refine ⟨log[i + 1], List.getElem_mem hnext, ?_⟩
  rw [sequence_getElem hlog (i + 1) hnext, sequence_getElem hlog i hi]
  push_cast
  ring

/-- The number one is taken in an accepted log that is not empty. -/
theorem exists_sequence_eq_one {log : List AuditLogEntry} (hlog : verifyChain sha256 log = none)
    (hne : log ≠ []) : ∃ e ∈ log, e.sequence = 1 := by
  have hlen : 0 < log.length := List.length_pos_iff.mpr hne
  refine ⟨log[0], List.getElem_mem hlen, ?_⟩
  rw [sequence_getElem hlog 0 hlen, nextSequence]
  simp

/-- A batch that was linked onto a head read earlier is written only while that head is the last
entry: the number of its first entry is free in no other case. -/
theorem eq_findLatest_of_conflict_eq_none {log entries : List AuditLogEntry}
    {entry : AuditLogEntry} {previous : Option AuditLogEntry} {expected : String}
    (hlog : verifyChain sha256 log = none) (hprevious : ∀ p, previous = some p → p ∈ log)
    (hentry : Follows sha256 previous entry)
    (hconflict : conflict log (entry :: entries) expected = none) :
    previous = findLatest log := by
  have hfree : sequenceConflict log (entry :: entries) = none := by
    simp only [conflict, List.length_cons, Nat.add_eq_zero_iff, one_ne_zero, and_false,
      if_false] at hconflict
    split at hconflict
    · cases hconflict
    · exact (Option.or_eq_none_iff.mp hconflict).1
  have hnumber : ∀ e ∈ log, e.sequence ≠ nextSequence previous := fun e he => by
    rw [← hentry.numbered]
    exact sequence_ne_of_sequenceConflict_eq_none hfree List.mem_cons_self he
  by_contra hne
  cases previous with
  | none =>
    have hlog' : log ≠ [] := by
      rintro rfl
      exact hne rfl
    obtain ⟨e, he, hseq⟩ := exists_sequence_eq_one hlog hlog'
    exact hnumber e he hseq
  | some p =>
    obtain ⟨e, he, hseq⟩ :=
      exists_sequence_eq_of_mem hlog (hprevious p rfl) (fun hlast => hne hlast.symm)
    exact hnumber e he hseq

/-- An atomic append of a batch that was linked onto a head read earlier keeps the log a verified
chain. -/
theorem verifyChain_append_of_conflict_eq_none {log entries : List AuditLogEntry}
    {previous : Option AuditLogEntry} {expected : String}
    (hlog : verifyChain sha256 log = none) (hprevious : ∀ p, previous = some p → p ∈ log)
    (hentries : verifyChainFrom sha256 previous entries = none)
    (hconflict : conflict log entries expected = none) :
    verifyChain sha256 (log ++ entries) = none := by
  cases entries with
  | nil => simpa using hlog
  | cons entry entries =>
    have hfirst := (verifyChainFrom_cons_eq_none_iff.mp hentries).1
    have hhead := eq_findLatest_of_conflict_eq_none hlog hprevious hfirst hconflict
    rw [verifyChain, verifyChainFrom_append, Option.or_none, Option.or_eq_none_iff]
    rw [hhead] at hentries
    exact ⟨hlog, hentries⟩

end InMemoryAuditLogRepository

/-! ## Asynchronous calls -/

/-- What `createId` and `new Date()` return within one synchronous stretch of code, in order. -/
structure Ambient where
  newId : ℕ → String
  now : ℕ → Date

/-- The calls of the recorders: two on the repository, a look at the surroundings, and two
reports. -/
inductive AuditRequest where
  | findLatest
  | appendMany (entries : List AuditLogEntry) (expectedPreviousHash : String)
  | ambient
  | onError (error : Failure)
  | countConflict

/-- What a call is answered with; `.error` is a promise that rejects. -/
def AuditRequest.Answer : AuditRequest → Type
  | findLatest => Except Failure (Option AuditLogEntry)
  | appendMany _ _ => Except Failure (Except ChainConflictError Unit)
  | ambient => Ambient
  | onError _ => Unit
  | countConflict => Unit

/-- A program over these calls. -/
abbrev AuditProgram (α : Type) := Program AuditRequest AuditRequest.Answer α

/-- `await repository.findLatest()`. -/
def findLatest : AuditProgram (Except Failure (Option AuditLogEntry)) :=
  Program.perform AuditRequest.findLatest

/-- `await repository.appendMany(entries, expectedPreviousHash)`. -/
def appendMany (entries : List AuditLogEntry) (expectedPreviousHash : String) :
    AuditProgram (Except Failure (Except ChainConflictError Unit)) :=
  Program.perform (AuditRequest.appendMany entries expectedPreviousHash)

/-- `await repository.append(entry, expectedPreviousHash)`. -/
def append (entry : AuditLogEntry) (expectedPreviousHash : String) :
    AuditProgram (Except Failure (Except ChainConflictError Unit)) :=
  appendMany [entry] expectedPreviousHash

/-- The ids and clock readings of the next synchronous stretch. -/
def ambient : AuditProgram Ambient := Program.perform AuditRequest.ambient

/-- `onError(error)`. -/
def onError (error : Failure) : AuditProgram Unit := Program.perform (AuditRequest.onError error)

/-- `conflictsTotal += 1`. -/
def countConflict : AuditProgram Unit := Program.perform AuditRequest.countConflict

/-- The log, as what it held at first and what was written since and by whom (`none` is a writer
outside the model), and what was reported. -/
structure AuditStore where
  initial : List AuditLogEntry
  appended : List (Option ℕ × AuditLogEntry)
  reported : List (ℕ × Failure)
  conflicts : List ℕ
  deriving DecidableEq

namespace AuditStore

/-- A store holding a log nobody has written to yet. -/
def ofLog (log : List AuditLogEntry) : AuditStore := ⟨log, [], [], []⟩

/-- The stored log. -/
def log (s : AuditStore) : List AuditLogEntry := s.initial ++ s.appended.map Prod.snd

/-- The entries written by `i`, in order. -/
def writtenBy (s : AuditStore) (i : ℕ) : List AuditLogEntry :=
  (s.appended.filter fun x => x.1 = some i).map Prod.snd

/-- Write a batch. -/
def write (s : AuditStore) (writer : Option ℕ) (entries : List AuditLogEntry) : AuditStore :=
  { s with appended := s.appended ++ entries.map fun entry => (writer, entry) }

@[simp] theorem log_write (s : AuditStore) (writer : Option ℕ) (entries : List AuditLogEntry) :
    (s.write writer entries).log = s.log ++ entries := by
  simp [log, write, Function.comp_def]

@[simp] theorem writtenBy_write_self (s : AuditStore) (i : ℕ) (entries : List AuditLogEntry) :
    (s.write (some i) entries).writtenBy i = s.writtenBy i ++ entries := by
  simp [writtenBy, write, List.filter_map, Function.comp_def]

theorem writtenBy_write_of_ne (s : AuditStore) {i : ℕ} {writer : Option ℕ}
    (h : writer ≠ some i) (entries : List AuditLogEntry) :
    (s.write writer entries).writtenBy i = s.writtenBy i := by
  simp [writtenBy, write, List.filter_map, Function.comp_def, h]

/-- What somebody wrote is in the log. -/
theorem mem_log_of_mem_writtenBy {s : AuditStore} {i : ℕ} {entry : AuditLogEntry}
    (h : entry ∈ s.writtenBy i) : entry ∈ s.log := by
  simp only [writtenBy, List.mem_map, List.mem_filter] at h
  obtain ⟨x, ⟨hx, -⟩, rfl⟩ := h
  exact List.mem_append_right _ (List.mem_map_of_mem hx)

/-- Report an error. -/
def report (s : AuditStore) (i : ℕ) (error : Failure) : AuditStore :=
  { s with reported := s.reported ++ [(i, error)] }

@[simp] theorem log_report (s : AuditStore) (i : ℕ) (error : Failure) :
    (s.report i error).log = s.log := rfl

@[simp] theorem writtenBy_report (s : AuditStore) (i j : ℕ) (error : Failure) :
    (s.report i error).writtenBy j = s.writtenBy j := rfl

/-- Count a conflict. -/
def count (s : AuditStore) (i : ℕ) : AuditStore := { s with conflicts := s.conflicts ++ [i] }

@[simp] theorem log_count (s : AuditStore) (i : ℕ) : (s.count i).log = s.log := rfl

@[simp] theorem writtenBy_count (s : AuditStore) (i j : ℕ) :
    (s.count i).writtenBy j = s.writtenBy j := rfl

end AuditStore

/-- What decides how a call ends: it is served, the repository throws or reports a conflict of
its own accord, or ids and clock readings are supplied. -/
inductive AuditInput where
  | served
  | throws (error : Failure)
  | refuses (error : ChainConflictError)
  | ambient (ambient : Ambient)

/-- How a call of `i` is answered, when `conflict` is the check of the repository.  A call that
throws or reports a conflict writes nothing. -/
def AuditStore.serve
    (conflict : List AuditLogEntry → List AuditLogEntry → String → Option ChainConflictError)
    (i : ℕ) (s : AuditStore) : (q : AuditRequest) → AuditInput → Option (q.Answer × AuditStore)
  | .findLatest, .served => some (.ok (InMemoryAuditLogRepository.findLatest s.log), s)
  | .findLatest, .throws error => some (.error error, s)
  | .appendMany entries expectedPreviousHash, .served =>
    match conflict s.log entries expectedPreviousHash with
    | some error => some (.ok (.error error), s)
    | none => some (.ok (.ok ()), s.write (some i) entries)
  | .appendMany _ _, .throws error => some (.error error, s)
  | .appendMany _ _, .refuses error => some (.ok (.error error), s)
  | .ambient, .ambient ambient => some (ambient, s)
  | .onError error, _ => some ((), s.report i error)
  | .countConflict, _ => some ((), s.count i)
  | _, _ => none

/-! ## What a call can do -/

section Serve

variable {conflict : List AuditLogEntry → List AuditLogEntry → String → Option ChainConflictError}
  {i : ℕ} {s u : AuditStore} {ω : AuditInput}

/-- Reading the head leaves the store as it is. -/
theorem serve_findLatest {answer : Except Failure (Option AuditLogEntry)}
    (h : s.serve conflict i .findLatest ω = some (answer, u)) :
    u = s ∧ (answer = .ok (InMemoryAuditLogRepository.findLatest s.log) ∨
      ∃ error, answer = .error error) := by
  cases ω with
  | served => cases h; exact ⟨rfl, .inl rfl⟩
  | throws error => cases h; exact ⟨rfl, .inr ⟨error, rfl⟩⟩
  | refuses error => cases h
  | ambient ambient => cases h

/-- An append writes the whole batch and succeeds, or writes nothing and does not succeed. -/
theorem serve_appendMany {entries : List AuditLogEntry} {expected : String}
    {answer : Except Failure (Except ChainConflictError Unit)}
    (h : s.serve conflict i (.appendMany entries expected) ω = some (answer, u)) :
    (answer = .ok (.ok ()) ∧ conflict s.log entries expected = none ∧
      u = s.write (some i) entries) ∨ (answer ≠ .ok (.ok ()) ∧ u = s) := by
  cases ω with
  | served =>
    simp only [AuditStore.serve] at h
    split at h
    · cases h; exact .inr ⟨by simp, rfl⟩
    · rename_i hnone; cases h; exact .inl ⟨rfl, hnone, rfl⟩
  | throws error => cases h; exact .inr ⟨by simp, rfl⟩
  | refuses error => cases h; exact .inr ⟨by simp, rfl⟩
  | ambient ambient => cases h

/-- A look at the surroundings leaves the store as it is. -/
theorem serve_ambient {answer : Ambient} (h : s.serve conflict i .ambient ω = some (answer, u)) :
    u = s := by
  cases ω with
  | ambient ambient => cases h; rfl
  | served => cases h
  | throws error => cases h
  | refuses error => cases h

/-- A report is stored. -/
theorem serve_onError {error : Failure} {answer : Unit}
    (h : s.serve conflict i (.onError error) ω = some (answer, u)) : u = s.report i error := by
  cases ω <;> (cases h; rfl)

/-- A counted conflict is stored. -/
theorem serve_countConflict {answer : Unit}
    (h : s.serve conflict i .countConflict ω = some (answer, u)) : u = s.count i := by
  cases ω <;> (cases h; rfl)

/-- Whatever is answered, what a call writes is written under the caller's name. -/
theorem serve_appended {q : AuditRequest} {answer : q.Answer}
    (h : s.serve conflict i q ω = some (answer, u)) :
    ∃ entries : List AuditLogEntry,
      u.appended = s.appended ++ entries.map fun entry => (some i, entry) := by
  cases q with
  | findLatest => exact ⟨[], by simp [(serve_findLatest h).1]⟩
  | appendMany entries expected =>
    rcases serve_appendMany h with ⟨-, -, rfl⟩ | ⟨-, rfl⟩
    · exact ⟨entries, rfl⟩
    · exact ⟨[], by simp⟩
  | ambient => exact ⟨[], by simp [serve_ambient h]⟩
  | onError error => exact ⟨[], by simp [serve_onError h, AuditStore.report]⟩
  | countConflict => exact ⟨[], by simp [serve_countConflict h, AuditStore.count]⟩

end Serve

end Verixa
