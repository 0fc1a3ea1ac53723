import Verixa.Audit.ConcurrentRecording
import Verixa.Concurrency.SideBySide
import Verixa.Concurrency.Solo
import Verixa.Concurrency.Throwing
import Verixa.StellarAnchor.HashAnchors

/-!
# Anchoring while entries are recorded

`AnchorAuditLog.execute` reads the head of the log, asks for the last receipt, has the hash anchored
and saves a receipt.  Between these calls recorders append entries and other calls of it anchor
later or the same heads, and every call may fail.

What links the log to the receipts survives all of this: every receipt names an entry of the log,
with its hash, and the ledger commits to that hash under the reference of the receipt (`Confirmed`).
The log only grows, so an entry that was the head stays in it; and what the ledger has accepted
verifies from then on.  Therefore a later verification of the whole log raises no false alarm
(`anchors_confirmed`).
-/

namespace Verixa

open Concurrency

/-! ## The calls of anchoring -/

/-- The calls on the receipts and on the ledger. -/
inductive AnchorRequest where
  | findLatest
  | anchor (hash : String)
  | save (record : AnchorRecord)

/-- What a call is answered with; `.error` is a promise that rejects. -/
def AnchorRequest.Answer : AnchorRequest → Type
  | findLatest => Except Failure (Option AnchorRecord)
  | anchor _ => Except Failure (Except AnchorFailure AnchorReceiptLike)
  | save _ => Except Failure Unit

/-- A program over the calls on the log, the receipts and the ledger, which may throw. -/
abbrev AnchoringProgram (α : Type) :=
  ThrowingProgram (AuditRequest ⊕ AnchorRequest)
    (Sum.elim AuditRequest.Answer AnchorRequest.Answer) Failure α

/-- `await this.auditLog.findLatest()`. -/
def readHead : AnchoringProgram (Option AuditLogEntry) := .call (.inl .findLatest) .ret

/-- `await this.anchors.findLatest()`. -/
def readReceipt : AnchoringProgram (Option AnchorRecord) := .call (.inr .findLatest) .ret

/-- `await this.hashAnchor.anchor(hash)`. -/
def anchorHash (hash : String) : AnchoringProgram (Except AnchorFailure AnchorReceiptLike) :=
  .call (.inr (.anchor hash)) .ret

/-- `await this.anchors.save(record)`. -/
def saveReceipt (record : AnchorRecord) : AnchoringProgram Unit :=
  .call (.inr (.save record)) .ret

/-- `AnchorAuditLog.execute` once the head and the last receipt were read. -/
def AnchorAuditLog.anchorHead (head : AuditLogEntry) (previous : Option AnchorRecord) :
    AnchoringProgram (Except AnchorAuditLogError AnchorAuditLogResult) :=
  if previous.any fun previous => previous.chainHash == head.hash then
    returning (.error (.validation ⟨"The current chain head is already anchored.",
      [("auditLog", ["already_anchored"])]⟩))
  else
    awaiting (anchorHash head.hash) fun
      | .error error => returning (.error (.anchor error))
      | .ok receipt =>
        let record : AnchorRecord :=
          { sequence := head.sequence
            chainHash := head.hash
            anchorRef := receipt.anchorRef
            network := receipt.network
            anchoredAt := receipt.anchoredAt }
        awaiting (saveReceipt record) fun _ =>
          returning (.ok ⟨record,
            head.sequence - (previous.elim 0 fun previous => previous.sequence)⟩)

/-- `AnchorAuditLog.execute`, call by call. -/
def AnchorAuditLog.program :
    AnchoringProgram (Except AnchorAuditLogError AnchorAuditLogResult) :=
  awaiting readHead fun
    | none => returning (.error (.validation ⟨"There is nothing to anchor: the audit log is empty.",
        [("auditLog", ["empty"])]⟩))
    | some head => awaiting readReceipt fun previous => anchorHead head previous

/-! ## What answers them -/

/-- The receipts saved so far and the ledger. -/
structure AnchorStore (Λ : Type) where
  records : List AnchorRecord
  ledger : Λ

/-- What decides how a call ends: it is served, throws, throws although the receipt was saved, or
reaches the ledger. -/
inductive AnchorInput (Ω : Type) where
  | served
  | throws (error : Failure)
  | savedAndThrows (error : Failure)
  | ledger (ω : Ω)

section Serve

variable {Λ Ω : Type} (hashAnchor : HashAnchor Λ Ω)

/-- How a call on the receipts or the ledger is answered. -/
def AnchorStore.serve (_ : ℕ) (s : AnchorStore Λ) :
    (q : AnchorRequest) → AnchorInput Ω → Option (q.Answer × AnchorStore Λ)
  | .findLatest, .served =>
    some (.ok (InMemoryAnchorRecordRepository.findLatest s.records), s)
  | .findLatest, .throws error => some (.error error, s)
  | .anchor hash, .ledger ω =>
    some ((hashAnchor.anchor s.ledger hash ω).1,
      { s with ledger := (hashAnchor.anchor s.ledger hash ω).2 })
  | .save record, .served => some (.ok (), { s with records := s.records ++ [record] })
  | .save _, .throws error => some (.error error, s)
  | .save record, .savedAndThrows error =>
    some (.error error, { s with records := s.records ++ [record] })
  | _, _ => none

/-- The ledger only meets outside values that can occur. -/
def ledgerOccurs : ℕ → AnchorStore Λ → AnchorRequest → AnchorInput Ω → Prop
  | _, s, .anchor _, .ledger ω => hashAnchor.occurs s.ledger ω
  | _, _, _, _ => True

variable {hashAnchor} {i : ℕ} {s u : AnchorStore Λ} {ω : AnchorInput Ω}

/-- Reading the last receipt leaves everything as it is. -/
theorem serve_findLatestReceipt {answer : Except Failure (Option AnchorRecord)}
    (h : s.serve hashAnchor i .findLatest ω = some (answer, u)) :
    u = s ∧ ((∃ error, answer = .error error) ∨
      answer = .ok (InMemoryAnchorRecordRepository.findLatest s.records)) := by
  cases ω with
  | served => cases h; exact ⟨rfl, .inr rfl⟩
  | throws error => cases h; exact ⟨rfl, .inl ⟨error, rfl⟩⟩
  | savedAndThrows error => cases h
  | ledger ω' => cases h

/-- Anchoring is what the adapter does. -/
theorem serve_anchor {hash : String}
    {answer : Except Failure (Except AnchorFailure AnchorReceiptLike)}
    (h : s.serve hashAnchor i (.anchor hash) ω = some (answer, u)) :
    ∃ ω', ω = .ledger ω' ∧ hashAnchor.anchor s.ledger hash ω' = (answer, u.ledger) ∧
      u.records = s.records := by
  cases ω with
  | ledger ω' => cases h; exact ⟨ω', rfl, rfl, rfl⟩
  | served => cases h
  | throws error => cases h
  | savedAndThrows error => cases h

/-- Saving adds the receipt, or throws. -/
theorem serve_save {record : AnchorRecord} {answer : Except Failure Unit}
    (h : s.serve hashAnchor i (.save record) ω = some (answer, u)) :
    u.ledger = s.ledger ∧
      ((∃ error, answer = .error error) ∧ u.records = s.records ∨
        u.records = s.records ++ [record]) := by
  cases ω with
  | served => cases h; exact ⟨rfl, .inr rfl⟩
  | throws error => cases h; exact ⟨rfl, .inl ⟨⟨error, rfl⟩, rfl⟩⟩
  | savedAndThrows error => cases h; exact ⟨rfl, .inr rfl⟩
  | ledger ω' => cases h

end Serve

/-! ## What links the receipts to the log -/

section Link

variable {Λ Ω : Type} (hashAnchor : HashAnchor Λ Ω)

/-- The receipt names an entry of the log, with its hash, and the ledger commits to that hash. -/
structure Confirmed (log : List AuditLogEntry) (ledger : Λ) (record : AnchorRecord) : Prop where
  logged : ∃ entry ∈ log, entry.sequence = record.sequence ∧ entry.hash = record.chainHash
  anchored : hashAnchor.verify ledger record.chainHash record.anchorRef = .ok true

/-- The ledger at the end confirms what it confirmed at the beginning. -/
def KeepsAnchors (ledger ledger' : Λ) : Prop :=
  ∀ hash anchorRef, hashAnchor.verify ledger hash anchorRef = .ok true →
    hashAnchor.verify ledger' hash anchorRef = .ok true

/-- Everybody counts on the ledger keeping what it has accepted. -/
def anchoring : Protocol (AnchorStore Λ) where
  inv _ := True
  rely _ s t := KeepsAnchors hashAnchor s.ledger t.ledger
  rely_refl _ _ _ _ h := h
  rely_trans _ _ _ _ hst htu hash anchorRef h := htu hash anchorRef (hst hash anchorRef h)

/-- All receipts are confirmed. -/
def AllConfirmed (s : AuditStore) (x : AnchorStore Λ) : Prop :=
  ∀ record ∈ x.records, Confirmed hashAnchor s.log x.ledger record

/-- What recorders and anchoring agree on. -/
def recordingAndAnchoring (sha256 : String → String) : Protocol (AuditStore × AnchorStore Λ) :=
  (recording fun log => verifyChain sha256 log = none).beside (anchoring hashAnchor)
    (AllConfirmed hashAnchor)

variable {hashAnchor} {sha256 : String → String}

theorem Confirmed.mono {log log' : List AuditLogEntry} {ledger ledger' : Λ} {record : AnchorRecord}
    (h : Confirmed hashAnchor log ledger record) (hlog : log <+: log')
    (hledger : KeepsAnchors hashAnchor ledger ledger') :
    Confirmed hashAnchor log' ledger' record := by
  obtain ⟨⟨entry, hentry, hsame⟩, hanchored⟩ := h
  exact ⟨⟨entry, hlog.subset hentry, hsame⟩, hledger _ _ hanchored⟩

/-- The link survives what recorders do to the log. -/
theorem allConfirmed_of_rely (j : ℕ) (s t : AuditStore) (x : AnchorStore Λ)
    (hst : (recording fun log => verifyChain sha256 log = none).rely j s t)
    (h : AllConfirmed hashAnchor s x) : AllConfirmed hashAnchor t x :=
  fun record hrecord => (h record hrecord).mono hst.1 fun _ _ hkept => hkept

variable {i : ℕ} {s : AuditStore} {x : AnchorStore Λ}

/-- Anchoring an entry of the log keeps to what is agreed on. -/
theorem AnchorAuditLog.safe_anchorHead {head : AuditLogEntry} (hhead : head ∈ s.log)
    (previous : Option AnchorRecord) :
    Safe (recordingAndAnchoring hashAnchor sha256)
      (beside (AuditStore.serve InMemoryAuditLogRepository.conflict)
        (AnchorStore.serve hashAnchor))
      (allowedBeside (fun _ _ _ _ => True) (ledgerOccurs hashAnchor)) i (fun _ _ => True)
      (AnchorAuditLog.anchorHead head previous) (s, x) := by
  unfold AnchorAuditLog.anchorHead
  split
  · exact fun _ _ _ => trivial
  · refine safe_callRight fun t y ω answer u hst _ _ _ hlinked hoccurs hserve => ?_
    obtain ⟨ω', rfl, hanchor, hrecords⟩ := serve_anchor hserve
    have hkeeps : KeepsAnchors hashAnchor y.ledger u.ledger := by
      intro hash anchorRef hverified
      have hkept := @hashAnchor.verify_kept _ head.hash ω' _ _ hoccurs hverified
      rwa [hanchor] at hkept
    refine ⟨trivial, fun record hrecord => ?_, fun j _ => hkeeps, ?_⟩
    · rw [hrecords] at hrecord
      exact (hlinked record hrecord).mono List.prefix_rfl hkeeps
    · rcases answer with failure | failure | receipt
      · exact fun _ _ _ => trivial
      · exact fun _ _ _ => trivial
      · have hverified := (hashAnchor.verify_anchored hoccurs hanchor).2
        refine safe_callRight fun t' y' ω'' answer u' hst' hkept _ _ hlinked' _ hserve' => ?_
        obtain ⟨hledger, hsaved⟩ := serve_save hserve'
        have hnew : Confirmed hashAnchor t'.log u'.ledger
            ⟨head.sequence, head.hash, receipt.anchorRef, receipt.network, receipt.anchoredAt⟩ := by
          refine ⟨⟨head, hst'.1.subset (hst.1.subset hhead), rfl, rfl⟩, ?_⟩
          rw [hledger]
          exact hkept _ _ hverified
        have hold : ∀ record ∈ y'.records, Confirmed hashAnchor t'.log u'.ledger record := by
          rw [hledger]
          exact hlinked'
        refine ⟨trivial, fun record hrecord => ?_, fun j _ => ?_, ?_⟩
        · rcases hsaved with ⟨-, hrecords'⟩ | hrecords'
          · exact hold record (hrecords' ▸ hrecord)
          · rw [hrecords', List.mem_append, List.mem_singleton] at hrecord
            rcases hrecord with hrecord | rfl
            · exact hold record hrecord
            · exact hnew
        · change KeepsAnchors hashAnchor y'.ledger u'.ledger
          rw [hledger]
          exact fun _ _ h => h
        · rcases answer with failure | ⟨⟩
          · exact fun _ _ _ => trivial
          · exact fun _ _ _ => trivial

/-- Anchoring keeps to what is agreed on. -/
theorem AnchorAuditLog.safe_program :
    Safe (recordingAndAnchoring hashAnchor sha256)
      (beside (AuditStore.serve InMemoryAuditLogRepository.conflict)
        (AnchorStore.serve hashAnchor))
      (allowedBeside (fun _ _ _ _ => True) (ledgerOccurs hashAnchor)) i (fun _ _ => True)
      AnchorAuditLog.program (s, x) := by
  refine safe_callLeft allConfirmed_of_rely fun t₁ y₁ ω answer u _ _ hinv _ hserve => ?_
  obtain ⟨rfl, hanswer⟩ := serve_findLatest hserve
  refine ⟨hinv, fun j _ => Protocol.rely_refl _ j u, ?_⟩
  rcases hanswer with rfl | ⟨error, rfl⟩
  case inr => exact fun _ _ _ => trivial
  cases hlatest : InMemoryAuditLogRepository.findLatest u.log with
  | none => exact fun _ _ _ => trivial
  | some head =>
    have hhead : head ∈ u.log := List.mem_of_getLast? hlatest
    refine safe_callRight fun t₂ y₂ ω answer u₂ hlog₂ _ _ _ hlinked₂ _ hserve => ?_
    obtain ⟨rfl, hanswer⟩ := serve_findLatestReceipt hserve
    refine ⟨trivial, hlinked₂, fun j _ => Protocol.rely_refl _ j u₂, ?_⟩
    rcases hanswer with ⟨error, rfl⟩ | rfl
    · exact fun _ _ _ => trivial
    · exact AnchorAuditLog.safe_anchorHead (hlog₂.1.subset hhead) _

/-! ## Anchoring alone -/

/-- Run alone, the calls from the head on return and save what `execute` does. -/
theorem AnchorAuditLog.execute_of_runs_anchorHead {head : AuditLogEntry}
    (hhead : InMemoryAuditLogRepository.findLatest s.log = some head)
    {outcome : Except AnchorAuditLogError AnchorAuditLogResult} {t : AuditStore × AnchorStore Λ}
    (h : Runs (beside (AuditStore.serve InMemoryAuditLogRepository.conflict)
      (AnchorStore.serve hashAnchor)) (fun _ _ _ _ => True) i
      (AnchorAuditLog.anchorHead head (InMemoryAnchorRecordRepository.findLatest x.records)) (s, x)
      (.ok outcome) t) :
    ∃ answer, AnchorAuditLog.execute s.log x.records answer = (outcome, t.2.records) := by
  unfold AnchorAuditLog.execute
  rw [hhead]
  unfold AnchorAuditLog.anchorHead at h
  dsimp only
  split at h
  · rename_i hanchored
    obtain ⟨houtcome, rfl⟩ := runs_ret.mp h
    cases houtcome
    exact ⟨fun _ => .error ⟨""⟩, if_pos hanchored⟩
  · rename_i hnew
    obtain ⟨r, u, ⟨ω, -, hserve⟩, h⟩ := runs_call.mp h
    obtain ⟨ω', rfl, hserve, -⟩ := beside_right hserve
    obtain ⟨-, -, -, hrecords⟩ := serve_anchor hserve
    rcases r with failure | failure | receipt
    · obtain ⟨houtcome, -⟩ := runs_ret.mp h
      cases houtcome
    · obtain ⟨houtcome, rfl⟩ := runs_ret.mp h
      cases houtcome
      exact ⟨fun _ => .error failure, by rw [if_neg hnew, hrecords]⟩
    · obtain ⟨r', u', ⟨ω, -, hserve'⟩, h⟩ := runs_call.mp h
      obtain ⟨ω', rfl, hserve', -⟩ := beside_right hserve'
      obtain ⟨-, hsaved⟩ := serve_save hserve'
      rcases r' with failure | ⟨⟩
      · obtain ⟨houtcome, -⟩ := runs_ret.mp h
        cases houtcome
      · obtain ⟨houtcome, rfl⟩ := runs_ret.mp h
        cases houtcome
        refine ⟨fun _ => .ok receipt, ?_⟩
        rcases hsaved with ⟨⟨error, hthrown⟩, -⟩ | hsaved
        · cases hthrown
        · rw [if_neg hnew, hsaved, hrecords]

/-- Run alone to a result, the calls return and save what `execute` does. -/
theorem AnchorAuditLog.execute_of_runs
    {outcome : Except AnchorAuditLogError AnchorAuditLogResult} {t : AuditStore × AnchorStore Λ}
    (h : Runs (beside (AuditStore.serve InMemoryAuditLogRepository.conflict)
      (AnchorStore.serve hashAnchor)) (fun _ _ _ _ => True) i AnchorAuditLog.program (s, x)
      (.ok outcome) t) :
    ∃ answer, AnchorAuditLog.execute s.log x.records answer = (outcome, t.2.records) := by
  obtain ⟨r, ⟨v, y⟩, ⟨ω, -, hserve⟩, hrest⟩ := runs_call.mp h
  obtain ⟨ω', rfl, hserve, hreceipts⟩ := beside_left hserve
  obtain rfl : y = x := hreceipts
  obtain ⟨hlog, hanswer | ⟨error, rfl⟩⟩ := serve_findLatest hserve
  · obtain rfl : v = s := hlog
    subst hanswer
    revert hrest
    cases hlatest : InMemoryAuditLogRepository.findLatest v.log with
    | none =>
      intro hrest
      obtain ⟨houtcome, rfl⟩ := runs_ret.mp hrest
      cases houtcome
      refine ⟨fun _ => .error ⟨""⟩, ?_⟩
      rw [AnchorAuditLog.execute, hlatest]
    | some head =>
      intro hrest
      obtain ⟨r', ⟨v', y'⟩, ⟨ω', -, hserve'⟩, hrest'⟩ := runs_call.mp hrest
      obtain ⟨ω', rfl, hserve', hlog'⟩ := beside_right hserve'
      obtain rfl : v' = v := hlog'
      obtain ⟨hstore, ⟨error, rfl⟩ | rfl⟩ := serve_findLatestReceipt hserve'
      · obtain ⟨houtcome, -⟩ := runs_ret.mp hrest'
        cases houtcome
      · obtain rfl : y' = y := hstore
        exact AnchorAuditLog.execute_of_runs_anchorHead hlatest hrest'
  · obtain ⟨houtcome, -⟩ := runs_ret.mp hrest
    cases houtcome

end Link

/-! ## The pool -/

/-- What a thread is asked to do. -/
inductive AnchoringCommand where
  | record (command : RecordingCommand)
  | anchor
  deriving DecidableEq

/-- What it returns. -/
def AnchoringCommand.Result : AnchoringCommand → Type
  | record command => command.Result
  | anchor => Except Failure (Except AnchorAuditLogError AnchorAuditLogResult)

/-- The program of a command. -/
def AnchoringCommand.body (sha256 : String → String) :
    (c : AnchoringCommand) → Program (AuditRequest ⊕ AnchorRequest)
      (Sum.elim AuditRequest.Answer AnchorRequest.Answer) c.Result
  | record command => (command.body sha256).left
  | anchor => AnchorAuditLog.program

section Pool

variable {Λ Ω : Type}

/-- Recorders and anchoring calls at work. -/
abbrev AnchoringPool (Λ : Type) :=
  Pool (AuditStore × AnchorStore Λ) (AuditRequest ⊕ AnchorRequest)
    (Sum.elim AuditRequest.Answer AnchorRequest.Answer) AnchoringCommand.Result

/-- One step of them. -/
def anchoringStep (sha256 : String → String) (hashAnchor : HashAnchor Λ Ω) :
    AnchoringPool Λ → PoolEvent AnchoringCommand (AuditInput ⊕ AnchorInput Ω) →
      Option (AnchoringPool Λ) :=
  Pool.step
    (beside (AuditStore.serve InMemoryAuditLogRepository.conflict) (AnchorStore.serve hashAnchor))
    (AnchoringCommand.body sha256)

/-- The ledger of a step only meets outside values that can occur. -/
def AnchoringPool.Occurs (hashAnchor : HashAnchor Λ Ω) (P : AnchoringPool Λ)
    (e : PoolEvent AnchoringCommand (AuditInput ⊕ AnchorInput Ω)) : Prop :=
  P.Allows (allowedBeside (fun _ _ _ _ => True) (ledgerOccurs hashAnchor)) e

/-- The log and the ledger before anything was anchored. -/
def anchoringStart (log : List AuditLogEntry) (ledger : Λ) : AnchoringPool Λ :=
  Pool.initial (AuditStore.ofLog log, ⟨[], ledger⟩)

variable {sha256 : String → String} {hashAnchor : HashAnchor Λ Ω}

/-- Every command keeps to what is agreed on. -/
theorem AnchoringCommand.safe_body (i : ℕ) (c : AnchoringCommand) {s : AuditStore}
    {x : AnchorStore Λ} (hidle : s.writtenBy i = []) :
    Safe (recordingAndAnchoring hashAnchor sha256)
      (beside (AuditStore.serve InMemoryAuditLogRepository.conflict)
        (AnchorStore.serve hashAnchor))
      (allowedBeside (fun _ _ _ _ => True) (ledgerOccurs hashAnchor)) i (fun _ _ => True)
      (c.body sha256) (s, x) := by
  cases c with
  | record command =>
    exact ((Verixa.safe_body i command hidle).left allConfirmed_of_rely).imp fun _ _ _ => trivial
  | anchor => exact AnchorAuditLog.safe_program

/-- In every run the log is a verified chain and all receipts are confirmed. -/
theorem confirmed_of_run {log : List AuditLogEntry} (hlog : verifyChain sha256 log = none)
    {ledger : Λ} {P : AnchoringPool Λ}
    (hrun : RunWhile (anchoringStep sha256 hashAnchor) (AnchoringPool.Occurs hashAnchor)
      (anchoringStart log ledger) P) :
    verifyChain sha256 P.store.1.log = none ∧ AllConfirmed hashAnchor P.store.1 P.store.2 := by
  have hsound := @sound_of_run _ _ _ _ _ _ (recordingAndAnchoring hashAnchor sha256) _ _
    (AnchoringCommand.body sha256) (anchoringStart log ledger) P
    (fun i s => s.1.writtenBy i = []) (fun _ _ _ _ _ => True)
    (fun i s t hst hidle => hst.1.2.trans hidle)
    (fun i c s _ hidle => AnchoringCommand.safe_body i c hidle)
    (sound_initial ⟨?_, trivial, ?_⟩ fun i => rfl) hrun
  · exact ⟨hsound.inv.1, hsound.inv.2.2⟩
  · simpa [recording, AuditStore.ofLog, AuditStore.log] using hlog
  · intro record hrecord
    cases hrecord

/-! ## Verification afterwards -/

/-- A verified chain is in ascending order. -/
theorem ascending_of_verifyChain {log : List AuditLogEntry} (h : verifyChain sha256 log = none) :
    Ascending log := by
  refine List.pairwise_iff_getElem.mpr fun i j hi hj hij => ?_
  rw [sequence_getElem h i hi, sequence_getElem h j hj]
  omega

/-- Its numbers begin with one. -/
theorem entriesFrom_one {log : List AuditLogEntry} (h : verifyChain sha256 log = none) :
    entriesFrom log 1 = log := by
  refine List.filter_eq_self.mpr fun entry hentry => ?_
  obtain ⟨i, hi, rfl⟩ := List.mem_iff_getElem.mp hentry
  rw [sequence_getElem h i hi, decide_eq_true_eq, nextSequence]
  omega

/-- In a verified chain the number of an entry finds it. -/
theorem find?_sequence {log : List AuditLogEntry} (h : verifyChain sha256 log = none)
    {entry : AuditLogEntry} (hentry : entry ∈ log) :
    (log.find? fun e => decide (e.sequence = entry.sequence)) = some entry := by
  cases hfind : log.find? fun e => decide (e.sequence = entry.sequence) with
  | none => simpa using List.find?_eq_none.mp hfind entry hentry
  | some found =>
    have hsequence : found.sequence = entry.sequence := by simpa using List.find?_some hfind
    rw [List.inj_on_of_nodup_map (nodup_sequence h) (List.mem_of_find?_eq_some hfind) hentry
      hsequence]

/-- The verifier reads the ledger, or cannot. -/
def Reads (hashAnchor : HashAnchor Λ Ω) (ledger : Λ)
    (verifier : String → String → Except AnchorFailure Bool) : Prop :=
  ∀ hash anchorRef, verifier hash anchorRef = hashAnchor.verify ledger hash anchorRef ∨
    ∃ failure, verifier hash anchorRef = .error failure

/-- The database confirms the receipt, and so does the ledger unless it cannot be read. -/
def AnchorChainCheck.Passes (check : AnchorChainCheck) : Prop :=
  check.matchesDatabaseChain = some true ∧
    (check.matchesLedger = some true ∨ check.matchesLedger = none ∧ check.ledgerError.isSome = true)

/-- The check of a confirmed receipt passes. -/
theorem passes_of_confirmed {log : List AuditLogEntry} (hlog : verifyChain sha256 log = none)
    {ledger : Λ} {record : AnchorRecord} (h : Confirmed hashAnchor log ledger record)
    {verifier : String → String → Except AnchorFailure Bool}
    (hverifier : Reads hashAnchor ledger verifier) :
    (checkAnchor (some verifier)
      ((log.find? fun entry => decide (entry.sequence = record.sequence)).map
        fun entry => entry.recomputedHash sha256) record).Passes := by
  obtain ⟨⟨entry, hentry, hsequence, hhash⟩, hanchored⟩ := h
  have hrecomputed : entry.recomputedHash sha256 = record.chainHash :=
    (validHash_of_mem hlog hentry).symm.trans hhash
  rw [← hsequence, find?_sequence hlog hentry, Option.map_some, hrecomputed]
  refine ⟨by simp [checkAnchor], ?_⟩
  rcases hverifier record.chainHash record.anchorRef with hread | ⟨failure, hread⟩
  · left
    simp [checkAnchor, hread, hanchored, Except.toOption]
  · right
    simp [checkAnchor, hread, Except.toOption]

/-- However recorders and anchoring calls interleave, and whichever of their calls fail, a
verification of the whole log that consults the receipts finds a verified chain and confirms every
receipt it consults. -/
theorem anchors_confirmed {log : List AuditLogEntry} (hlog : verifyChain sha256 log = none)
    {ledger : Λ} {P : AnchoringPool Λ}
    (hrun : RunWhile (anchoringStep sha256 hashAnchor) (AnchoringPool.Occurs hashAnchor)
      (anchoringStart log ledger) P)
    {verifier : String → String → Except AnchorFailure Bool}
    (hverifier : Reads hashAnchor P.store.2.ledger verifier) {command : VerifyAuditChainCommand}
    (hcommand : ChecksWholeLog command) (hvalidated : validateCommand command = none) :
    ∃ result, VerifyAuditChain.execute sha256 P.store.1.log
        (some (InMemoryAnchorRecordRepository.findAll P.store.2.records)) (some verifier) command =
        .ok result ∧
      result.valid = true ∧
      result.anchorChecks.map (fun check => check.anchorRef) =
        (P.store.2.records.reverse.take
          (command.maxAnchorChecks.getD DEFAULT_MAX_ANCHOR_CHECKS)).map
            (fun record => record.anchorRef) ∧
      ∀ check ∈ result.anchorChecks, check.Passes := by
  obtain ⟨hchain, hconfirmed⟩ := confirmed_of_run hlog hrun
  obtain ⟨result, hresult, hvalid, hchecks⟩ :=
    @verdict_of_execute sha256 _ (ascending_of_verifyChain hchain)
      (some (InMemoryAnchorRecordRepository.findAll P.store.2.records)) (some verifier) command
      hvalidated hcommand.checkAnchors
  rw [hcommand.fromSequence, hcommand.toSequence, Option.getD_none] at hvalid hchecks
  have hselected : verifyChain sha256 (entriesFrom P.store.1.log 1) = none := by
    rwa [entriesFrom_one hchain]
  have hbreak : windowBreak sha256 P.store.1.log 1 none = none := hselected
  have hinspected : windowInspected sha256 P.store.1.log 1 none = P.store.1.log := by
    rw [windowInspected, hbreak]
    exact entriesFrom_one hchain
  have hconsulted : consultedRecords
      (some (InMemoryAnchorRecordRepository.findAll P.store.2.records)) command =
        P.store.2.records.reverse.take
          (command.maxAnchorChecks.getD DEFAULT_MAX_ANCHOR_CHECKS) := by
    unfold consultedRecords
    rw [hcommand.checkAnchors]
    rfl
  rw [hinspected, hconsulted] at hchecks
  refine ⟨result, hresult, by rw [hvalid, hbreak]; rfl, ?_, fun check hcheck => ?_⟩
  · rw [hchecks, List.map_map]
    exact List.map_congr_left fun record _ => rfl
  · rw [hchecks] at hcheck
    obtain ⟨record, hrecord, rfl⟩ := List.mem_map.mp hcheck
    have hsaved : record ∈ P.store.2.records := List.mem_reverse.mp (List.mem_of_mem_take hrecord)
    exact passes_of_confirmed hchain (hconfirmed record hsaved) hverifier

end Pool

/-- A registration is recorded; while it is being anchored, a login is recorded. -/
def sampleAnchoring :
    List (PoolEvent AnchoringCommand (AuditInput ⊕ AnchorInput (String × Date))) :=
  [.start 0 (.record (.recordAuditEvent 3 sampleRegistration)),
    .answer 0 (.inl .served),
    .answer 0 (.inl (.ambient (ambientOf "a1" sampleTime))),
    .answer 0 (.inl .served),
    .start 1 .anchor,
    .answer 1 (.inl .served),
    .start 2 (.record (.recordAuditEventBatch [sampleLogin])),
    .answer 2 (.inl .served),
    .answer 2 (.inl (.ambient (ambientOf "a2" sampleTimeLater))),
    .answer 1 (.inr .served),
    .answer 1 (.inr (.ledger ("anchor-1", sampleTimeLater))),
    .answer 2 (.inl .served),
    .answer 1 (.inr .served)]

instance (i : ℕ) (s : AuditStore × AnchorStore InMemoryHashAnchor)
    (q : AuditRequest ⊕ AnchorRequest) (ω : AuditInput ⊕ AnchorInput (String × Date)) :
    Decidable (allowedBeside (fun _ _ _ _ => True) (ledgerOccurs InMemoryHashAnchor.adapter)
      i s q ω) :=
  match q, ω with
  | .inr (.anchor _), .inr (.ledger ω') =>
    inferInstanceAs (Decidable (s.2.ledger.anchorsByRef.get? ω'.1 = none))
  | .inl _, .inl _ => isTrue trivial
  | .inl _, .inr _ => isTrue trivial
  | .inr _, .inl _ => isTrue trivial
  | .inr .findLatest, .inr _ => isTrue trivial
  | .inr (.save _), .inr _ => isTrue trivial
  | .inr (.anchor _), .inr .served => isTrue trivial
  | .inr (.anchor _), .inr (.throws _) => isTrue trivial
  | .inr (.anchor _), .inr (.savedAndThrows _) => isTrue trivial

instance (P : AnchoringPool InMemoryHashAnchor)
    (e : PoolEvent AnchoringCommand (AuditInput ⊕ AnchorInput (String × Date))) :
    Decidable (AnchoringPool.Occurs InMemoryHashAnchor.adapter P e) :=
  inferInstanceAs (Decidable (P.Allows _ e))

/-- What the sample anchoring ends in. -/
def sampleAnchoredPool : AnchoringPool InMemoryHashAnchor :=
  (execWhile (anchoringStep sampleSha256 InMemoryHashAnchor.adapter)
    (AnchoringPool.Occurs InMemoryHashAnchor.adapter)
    (anchoringStart [] ⟨OrderedMap.empty, false⟩) sampleAnchoring).get (by decide +kernel)

/-- The receipt of the sample anchoring, for an entry that is not the head any more, passes. -/
theorem anchors_confirmed_sample :
    sampleAnchoredPool.store.1.log = [sampleGenesis, sampleSecond] ∧
      ∃ result, VerifyAuditChain.execute sampleSha256 [sampleGenesis, sampleSecond]
          (some (InMemoryAnchorRecordRepository.findAll sampleAnchoredPool.store.2.records))
          (some (sampleAnchoredPool.store.2.ledger.verify)) sampleCheck = .ok result ∧
        result.valid = true ∧
        result.anchorChecks.map (fun check => check.anchorRef) = ["anchor-1"] ∧
        ∀ check ∈ result.anchorChecks, check.Passes := by
  have hlog : sampleAnchoredPool.store.1.log = [sampleGenesis, sampleSecond] := by decide +kernel
  obtain ⟨result, hresult, hvalid, hrefs, hpasses⟩ :=
    @anchors_confirmed _ _ sampleSha256 InMemoryHashAnchor.adapter [] rfl
      ⟨OrderedMap.empty, false⟩ sampleAnchoredPool (runWhile_get _)
      sampleAnchoredPool.store.2.ledger.verify (fun _ _ => .inl rfl) sampleCheck ⟨rfl, rfl, rfl⟩
      (by decide)
  rw [hlog] at hresult
  exact ⟨hlog, result, hresult, hvalid, hrefs.trans (by decide +kernel), hpasses⟩

end Verixa
