import Verixa.Verification.ReviewLeases

/-!
# The claim of the next case in SQL

The Prisma repository claims the next case in a transaction: it looks whether the reviewer holds a
claim already, selects the oldest claimable row that no other transaction has locked, locks and
updates it, and commits.  Under READ COMMITTED every statement sees what was committed before it,
and transactions interleave between statements.

The row lock keeps any two leases on one request apart.  It does not protect the look at the other
claims of the reviewer, so that two calls of one reviewer can both claim (`claims_of_one_reviewer`).
While the checks of one reviewer do not overlap, and no claim lasts a negative time, both promises
are kept (`promises_kept`).
-/

namespace Verixa.Verification

open Concurrency VerificationRequestMapper

/-! ## The table and its calls -/

/-- A lease that a transaction has written for a call. -/
structure Lease where
  thread : ℕ
  params : ClaimNextInReviewParams
  row : VerificationRequestRow
  deriving DecidableEq

/-- The table as transactions see it.  What a transaction has written is seen by others when it is
committed.  Two fields are kept for what is said about runs, and read by nothing else: the checks
of running transactions that found no active claim, with reviewer and instant, and the leases that
were committed, the latest first. -/
structure ClaimTable where
  rows : KeyedMap VerificationRequestRow.id
  locks : String → Option ℕ
  written : ℕ → Option Lease
  checked : List (ℕ × String × ℤ)
  log : List Lease

/-- A statement of a transaction, or its end. -/
inductive SqlCall where
  | findActiveClaim (reviewerId : String) (now : ℤ)
  | selectClaimable (now : ℤ)
  | updateClaim (id : String) (params : ClaimNextInReviewParams)
  | commit
  | rollback
  deriving DecidableEq

/-- What a statement is answered with, `none` if it throws; a commit tells whether it succeeded. -/
def SqlCall.Answer : SqlCall → Type
  | .findActiveClaim _ _ => Option Bool
  | .selectClaimable _ => Option (Option String)
  | .updateClaim _ _ => Option VerificationRequestRow
  | .commit => Bool
  | .rollback => Unit

/-- A program over these calls. -/
abbrev SqlProgram := Program SqlCall SqlCall.Answer

/-- Whether the database serves a call. -/
inductive SqlInput where
  | served
  | failed
  deriving DecidableEq

/-- `assigned_reviewer_id` is the reviewer, and `claim_expires_at` is later. -/
def VerificationRequestRow.isActiveClaimOf (row : VerificationRequestRow) (reviewerId : String)
    (now : ℤ) : Bool :=
  decide (row.assignedReviewerId = some reviewerId) &&
    row.claimExpiresAt.join.any fun expiresAt => decide (now < expiresAt)

/-- The `WHERE` of the selection. -/
def VerificationRequestRow.isClaimableAt (row : VerificationRequestRow) (now : ℤ) : Bool :=
  decide (row.status = "in_review") &&
    (row.assignedReviewerId.isNone ||
      row.claimExpiresAt.join.any fun expiresAt => decide (expiresAt ≤ now))

/-- `new Date(now.getTime() + claimTtlMs)`, if that is a date. -/
def ClaimNextInReviewParams.claimExpiresAt (params : ClaimNextInReviewParams) : Option ℤ :=
  match params.claimTtlMs with
  | .finite ttlMs => timeClip (params.now + ttlMs)
  | _ => none

namespace ClaimTable

/-- The table in which nothing is going on. -/
def fresh (rows : KeyedMap VerificationRequestRow.id) : ClaimTable :=
  ⟨rows, fun _ => none, fun _ => none, [], []⟩

/-- The oldest claimable row that is not locked. -/
def nextUnlocked (s : ClaimTable) (now : ℤ) : Option VerificationRequestRow :=
  ((s.rows.values.filter fun row => row.isClaimableAt now && (s.locks row.id).isNone).insertionSort
    fun a b => a.createdAt ≤ b.createdAt).head?

/-- A transaction ends: its locks are released, and what it has written is gone. -/
def close (s : ClaimTable) (i : ℕ) : ClaimTable :=
  { s with
    locks := fun id => (s.locks id).filter fun j => decide (j ≠ i)
    written := Function.update s.written i none
    checked := s.checked.filter fun check => decide (check.1 ≠ i) }

/-- A transaction ends, and what it has written is seen from now on. -/
def commit (s : ClaimTable) (i : ℕ) : ClaimTable :=
  match s.written i with
  | none => s.close i
  | some lease => { s.close i with rows := s.rows.put lease.row, log := lease :: s.log }

/-- How a call of thread `i` is answered. -/
def serve : Server ClaimTable SqlInput SqlCall SqlCall.Answer
  | i, s, .findActiveClaim reviewerId now, .served =>
    if s.rows.values.any fun row => row.isActiveClaimOf reviewerId now then some (some true, s)
    else some (some false, { s with checked := (i, reviewerId, now) :: s.checked })
  | i, s, .selectClaimable now, .served =>
    match s.nextUnlocked now with
    | none => some (some none, s)
    | some row => some (some row.id, { s with locks := Function.update s.locks row.id (some i) })
  | i, s, .updateClaim id params, .served =>
    match s.rows.get? id, params.claimExpiresAt with
    | some row, some expiresAt =>
      let row := { row with
        assignedReviewerId := some params.reviewerId, assignedAt := some params.now,
        claimExpiresAt := some (some expiresAt), updatedAt := params.now }
      some (some row, { s with written := Function.update s.written i (some ⟨i, params, row⟩) })
    | _, _ => some (none, s)
  | i, s, .commit, .served => some (true, s.commit i)
  | i, s, .commit, .failed => some (false, s.close i)
  | i, s, .rollback, _ => some ((), s.close i)
  | _, s, .findActiveClaim _ _, .failed => some (none, s)
  | _, s, .selectClaimable _, .failed => some (none, s)
  | _, s, .updateClaim _ _, .failed => some (none, s)

end ClaimTable

/-! ## The repository -/

namespace PrismaVerificationRequestRepository

/-- `tx.verificationRequest.findFirst`, and whether it found one. -/
def findActiveClaim (reviewerId : String) (now : ℤ) : SqlProgram (Option Bool) :=
  Program.perform (SqlCall.findActiveClaim reviewerId now)

/-- `SELECT … FOR UPDATE SKIP LOCKED`. -/
def selectClaimable (now : ℤ) : SqlProgram (Option (Option String)) :=
  Program.perform (SqlCall.selectClaimable now)

/-- `tx.verificationRequest.update`. -/
def updateClaim (id : String) (params : ClaimNextInReviewParams) :
    SqlProgram (Option VerificationRequestRow) :=
  Program.perform (SqlCall.updateClaim id params)

/-- `prisma.$transaction`: what the callback has done is committed, or rolled back if it throws. -/
def transaction {α : Type} (callback : SqlProgram (Option α)) : SqlProgram (Option α) := do
  match ← callback with
  | none => do
    Program.perform SqlCall.rollback
    return none
  | some a => do
    let committed : Bool ← Program.perform SqlCall.commit
    return if committed then some a else none

/-- Selects the next case and assigns it to the reviewer. -/
def assignNext (params : ClaimNextInReviewParams) : SqlProgram (Option ClaimNextOutcome) := do
  match ← selectClaimable params.now with
  | none => return none
  | some none => return some .none
  | some (some candidate) => do
    match ← updateClaim candidate params with
    | none => return none
    | some updated =>
      match toDomain updated with
      | .error _ => return none
      | .ok request => return some (.claimed request)

/-- Claims the next case; `none` if it throws. -/
def claimNextInReview (params : ClaimNextInReviewParams) : SqlProgram (Option ClaimNextOutcome) :=
  transaction (if params.oneAtATime then do
    match ← findActiveClaim params.reviewerId params.now with
    | none => return none
    | some true => return some .alreadyClaiming
    | some false => assignNext params
  else assignNext params)

end PrismaVerificationRequestRepository

/-- Any number of calls on one table. -/
abbrev ClaimPool := Pool ClaimTable SqlCall SqlCall.Answer
  fun _ : ClaimNextInReviewParams => Option ClaimNextOutcome

/-- One step of the calls. -/
def ClaimPool.step : ClaimPool → PoolEvent ClaimNextInReviewParams SqlInput → Option ClaimPool :=
  Pool.step ClaimTable.serve PrismaVerificationRequestRepository.claimNextInReview

/-! ## The promises -/

/-- The claim was taken, and has not expired. -/
def ReviewAssignment.CoversAt (claim : ReviewAssignment) (now : ℤ) : Prop :=
  claim.assignedAt ≤ now ∧ claim.isActiveAt now = true

/-- The call has returned the request as claimed. -/
def ClaimPool.Claimed (P : ClaimPool) (i : ℕ) (params : ClaimNextInReviewParams)
    (request : VerificationRequest) : Prop :=
  P.returned i = some ⟨params, some (.claimed request)⟩

/-- The stored row still has the claim of the request. -/
def ClaimTable.Carries (s : ClaimTable) (request : VerificationRequest) : Prop :=
  ∃ row, s.rows.get? request.id = some row ∧ assignmentOf row = request.assignment

/-- The promises of the port: leases on one request do not overlap, and of the leases that a
reviewer has taken one at a time, and that are still in place, no two are active together. -/
structure PromisesKept (P : ClaimPool) : Prop where
  exclusive : ∀ i j params params' request request' claim claim', i ≠ j →
    P.Claimed i params request → P.Claimed j params' request' → request.id = request'.id →
      request.assignment = some claim → request'.assignment = some claim' →
        ∀ now, ¬(claim.CoversAt now ∧ claim'.CoversAt now)
  oneAtATime : ∀ i j params params' request request' claim claim', i ≠ j →
    params.oneAtATime = true → params'.oneAtATime = true →
      params.reviewerId = params'.reviewerId →
        P.Claimed i params request → P.Claimed j params' request' →
          P.store.Carries request → P.store.Carries request' →
            request.assignment = some claim → request'.assignment = some claim' →
              ∀ now, ¬(claim.CoversAt now ∧ claim'.CoversAt now)

/-- No running transaction has checked the claims of the same reviewer before, and a claim does not
last a negative time. -/
def separate (s : ClaimTable) : SqlCall → Bool
  | .findActiveClaim reviewerId _ => s.checked.all fun check => decide (check.2.1 ≠ reviewerId)
  | .updateClaim _ params => Number.le (.finite 0) params.claimTtlMs
  | _ => true

/-- `separate`, as a condition on the calls of a run. -/
def Separate (_ : ℕ) (s : ClaimTable) (q : SqlCall) (_ : SqlInput) : Prop :=
  separate s q = true

instance (i : ℕ) (s : ClaimTable) (q : SqlCall) (ω : SqlInput) : Decidable (Separate i s q ω) :=
  inferInstanceAs (Decidable (_ = true))

/-! ## The law of the table -/

/-- The row has the claim of the call, until some instant. -/
structure Lease.Until (lease : Lease) (expiresAt : ℤ) : Prop where
  reviewer : lease.row.assignedReviewerId = some lease.params.reviewerId
  assigned : lease.row.assignedAt = some lease.params.now
  expires : lease.row.claimExpiresAt = some (some expiresAt)
  ordered : lease.params.now ≤ expiresAt

/-- A lease ends once. -/
theorem Lease.Until.unique {lease : Lease} {expiresAt expiresAt' : ℤ} (h : lease.Until expiresAt)
    (h' : lease.Until expiresAt') : expiresAt = expiresAt' := by
  have hsame := h.expires.symm.trans h'.expires
  simpa using hsame

/-- The lease that a request carries: the latest that was committed. -/
def ClaimTable.carried (s : ClaimTable) (id : String) : Option Lease :=
  s.log.find? fun lease => decide (lease.row.id = id)

/-- The one lease has expired when the other is taken. -/
def Lease.EndsBefore (lease later : Lease) : Prop :=
  ∀ expiresAt, lease.Until expiresAt → expiresAt ≤ later.params.now

/-- A thread may write a claim into the row: it has the lock, the stored row can be claimed, and the
claims of the reviewer were checked. -/
structure ClaimTable.MayClaim (s : ClaimTable) (i : ℕ) (params : ClaimNextInReviewParams)
    (id : String) : Prop where
  locked : s.locks id = some i
  claimable : ∃ row, s.rows.get? id = some row ∧ row.isClaimableAt params.now = true
  checked : params.oneAtATime = true → (i, params.reviewerId, params.now) ∈ s.checked

/-- What holds of the table all along. -/
structure ClaimTable.Lawful (s : ClaimTable) : Prop where
  /-- What a transaction has written, it may write. -/
  written : ∀ i lease, s.written i = some lease → lease.thread = i ∧
    (∃ expiresAt, lease.Until expiresAt) ∧ s.MayClaim i lease.params lease.row.id
  logged : ∀ lease ∈ s.log, ∃ expiresAt, lease.Until expiresAt
  /-- The lease that a request carries is stored. -/
  stored : ∀ id lease, s.carried id = some lease → s.rows.get? id = some lease.row
  /-- Of two leases on one request, the older one had expired. -/
  ordered : s.log.Pairwise fun newer older => newer.row.id = older.row.id → older.EndsBefore newer
  /-- Of the checks of a reviewer, one is running. -/
  alone : ∀ check ∈ s.checked, ∀ check' ∈ s.checked, check.2.1 = check'.2.1 → check = check'
  /-- Leases that the reviewer has taken one at a time have expired for those who have checked. -/
  passed : ∀ check ∈ s.checked, ∀ id lease, s.carried id = some lease →
    lease.params.oneAtATime = true → lease.params.reviewerId = check.2.1 →
      ∀ expiresAt, lease.Until expiresAt → expiresAt ≤ check.2.2
  /-- Of two leases that the reviewer has taken one at a time, one has expired. -/
  apart : ∀ id id' lease lease', id ≠ id' → s.carried id = some lease →
    s.carried id' = some lease' → lease.params.oneAtATime = true →
      lease'.params.oneAtATime = true → lease.params.reviewerId = lease'.params.reviewerId →
        lease.EndsBefore lease' ∨ lease'.EndsBefore lease

/-- What thread `i` may count on between two of its own calls. -/
structure ClaimTable.Undisturbed (i : ℕ) (s t : ClaimTable) : Prop where
  locks : ∀ id, s.locks id = some i → t.locks id = some i
  rows : ∀ id, s.locks id = some i → t.rows.get? id = s.rows.get? id
  written : t.written i = s.written i
  checked : ∀ check ∈ s.checked, check.1 = i → check ∈ t.checked
  log : ∀ lease ∈ s.log, lease ∈ t.log

/-- What the transactions agree on. -/
def claimProtocol : Protocol ClaimTable where
  inv := ClaimTable.Lawful
  rely := ClaimTable.Undisturbed
  rely_refl _ _ := ⟨fun _ h => h, fun _ _ => rfl, rfl, fun _ h _ => h, fun _ h => h⟩
  rely_trans _ _ _ _ hst htu := by
    refine ⟨fun id h => htu.locks id (hst.locks id h), fun id h => ?_,
      htu.written.trans hst.written, fun check h hi => ?_, fun lease h => ?_⟩
    · exact (htu.rows id (hst.locks id h)).trans (hst.rows id h)
    · exact htu.checked check (hst.checked check h hi) hi
    · exact htu.log lease (hst.log lease h)

/-! ## The end of a transaction -/

section Ends

variable {s : ClaimTable} {i j : ℕ}

theorem ClaimTable.locks_close {id : String} :
    (s.close i).locks id = some j ↔ s.locks id = some j ∧ j ≠ i := by
  simp [ClaimTable.close, Option.filter_eq_some_iff]

theorem ClaimTable.mem_checked_close {check : ℕ × String × ℤ} :
    check ∈ (s.close i).checked ↔ check ∈ s.checked ∧ check.1 ≠ i := by
  simp [ClaimTable.close]

theorem ClaimTable.written_close {lease : Lease} :
    (s.close i).written j = some lease ↔ s.written j = some lease ∧ j ≠ i := by
  by_cases hji : j = i <;> simp [ClaimTable.close, hji]

/-- The end of another transaction takes nothing from a thread. -/
theorem ClaimTable.undisturbed_close (hji : j ≠ i) : s.Undisturbed j (s.close i) where
  locks _ h := locks_close.mpr ⟨h, hji⟩
  rows _ _ := rfl
  written := by simp [close, hji]
  checked check h hj := mem_checked_close.mpr ⟨h, by rw [hj]; exact hji⟩
  log _ h := h

/-- What another thread may claim, it still may. -/
theorem ClaimTable.MayClaim.of_undisturbed {t : ClaimTable} {params : ClaimNextInReviewParams}
    {id : String} (h : s.MayClaim j params id) (hst : s.Undisturbed j t) :
    t.MayClaim j params id where
  locked := hst.locks id h.locked
  claimable := by
    rw [hst.rows id h.locked]
    exact h.claimable
  checked hone := hst.checked _ (h.checked hone) rfl

/-- A transaction that is rolled back keeps the law. -/
theorem ClaimTable.Lawful.close (h : s.Lawful) (i : ℕ) : (s.close i).Lawful where
  written j lease hwritten := by
    obtain ⟨hwritten, hji⟩ := written_close.mp hwritten
    obtain ⟨hthread, huntil, hmay⟩ := h.written j lease hwritten
    exact ⟨hthread, huntil, hmay.of_undisturbed (undisturbed_close hji)⟩
  logged := h.logged
  stored := h.stored
  ordered := h.ordered
  alone check hcheck check' hcheck' :=
    h.alone check (mem_checked_close.mp hcheck).1 check' (mem_checked_close.mp hcheck').1
  passed check hcheck := h.passed check (mem_checked_close.mp hcheck).1
  apart := h.apart

theorem ClaimTable.commit_of_written {lease : Lease} (hwritten : s.written i = some lease) :
    s.commit i = { s.close i with rows := s.rows.put lease.row, log := lease :: s.log } := by
  rw [ClaimTable.commit, hwritten]

/-- The commit of another transaction takes nothing from a thread. -/
theorem ClaimTable.undisturbed_commit (h : s.Lawful) (hji : j ≠ i) :
    s.Undisturbed j (s.commit i) := by
  cases hwritten : s.written i with
  | none =>
    rw [commit, hwritten]
    exact undisturbed_close hji
  | some lease =>
    rw [commit_of_written hwritten]
    have hclose : s.Undisturbed j (s.close i) := undisturbed_close hji
    refine ⟨hclose.locks, fun id hlocked => ?_, hclose.written, hclose.checked,
      fun old hold => List.mem_cons_of_mem _ hold⟩
    -- the row that is written is locked by the other thread
    have hlease := (h.written i lease hwritten).2.2.locked
    refine KeyedMap.get?_put_of_ne _ fun hid => hji ?_
    rw [hid, hlocked] at hlease
    exact Option.some.inj hlease

/-- The lease that a request carries after another was committed. -/
theorem carried_of_commit {t : ClaimTable} {lease : Lease} (hlog : t.log = lease :: s.log)
    (id : String) : t.carried id = if lease.row.id = id then some lease else s.carried id := by
  rw [ClaimTable.carried, hlog, List.find?_cons]
  by_cases hid : lease.row.id = id <;> simp [hid, ClaimTable.carried]

/-- A lease that is found was committed, on this request. -/
theorem of_carried {id : String} {lease : Lease} (h : s.carried id = some lease) :
    lease ∈ s.log ∧ lease.row.id = id :=
  ⟨List.mem_of_find?_eq_some h, by simpa using List.find?_some h⟩

/-- What was committed for a request has ended when the request can be claimed. -/
theorem endsBefore_of_claimable (h : s.Lawful) {lease older : Lease} {row : VerificationRequestRow}
    (holder : older ∈ s.log) (hid : lease.row.id = older.row.id)
    (hrow : s.rows.get? lease.row.id = some row)
    (hclaimable : row.isClaimableAt lease.params.now = true) : older.EndsBefore lease := by
  intro expiresAt huntil
  -- the latest lease on the request is the one that is stored
  obtain ⟨latest, hlatest⟩ : ∃ latest, s.carried lease.row.id = some latest := by
    rw [← Option.isSome_iff_exists, ClaimTable.carried, List.find?_isSome]
    exact ⟨older, holder, by simp [hid]⟩
  obtain ⟨hmem, hlatestId⟩ := of_carried hlatest
  obtain ⟨latestExpires, hlatestUntil⟩ := h.logged latest hmem
  have hstored : latest.row = row :=
    Option.some.inj ((h.stored _ _ hlatest).symm.trans hrow)
  have hexpired : latestExpires ≤ lease.params.now := by
    simpa [VerificationRequestRow.isClaimableAt, ← hstored, hlatestUntil.reviewer,
      hlatestUntil.expires] using (Bool.and_eq_true _ _).mp hclaimable |>.2
  -- and the others have ended before it
  obtain ⟨newer, older', hsplit, hnone⟩ := List.find?_eq_some_iff_append.mp hlatest |>.2
  have hordered := h.ordered
  rw [hsplit] at holder hordered
  rcases List.mem_append.mp holder with hnewer | hrest
  · have hnot := hnone older hnewer
    simp [hid] at hnot
  · rcases List.mem_cons.mp hrest with rfl | holder'
    · rw [huntil.unique hlatestUntil]
      exact hexpired
    · have hbefore := (List.pairwise_cons.mp (List.pairwise_append.mp hordered).2.1).1 older holder'
      have hend := hbefore (hlatestId.trans hid) expiresAt huntil
      exact hend.trans (hlatestUntil.ordered.trans hexpired)

/-- A transaction that commits keeps the law. -/
theorem ClaimTable.Lawful.commit (h : s.Lawful) (i : ℕ) : (s.commit i).Lawful := by
  cases hwritten : s.written i with
  | none =>
    rw [ClaimTable.commit, hwritten]
    exact h.close i
  | some lease =>
    obtain ⟨hthread, ⟨expiresAt, huntil⟩, hmay⟩ := h.written i lease hwritten
    obtain ⟨row, hrow, hclaimable⟩ := hmay.claimable
    have hcommit := ClaimTable.commit_of_written hwritten
    have hclose := h.close i
    have hcarried := carried_of_commit (t := s.commit i) (congrArg ClaimTable.log hcommit)
    -- nobody else has checked the claims of a reviewer who claims one case at a time
    have halone : ∀ check ∈ (s.commit i).checked, lease.params.oneAtATime = true →
        lease.params.reviewerId ≠ check.2.1 := by
      intro check hcheck hone hsame
      rw [hcommit] at hcheck
      obtain ⟨hcheck, hother⟩ := ClaimTable.mem_checked_close.mp hcheck
      have hfirst := h.alone _ (hmay.checked hone) check hcheck hsame
      rw [← hfirst] at hother
      exact hother rfl
    -- and what he holds has expired
    have hexpired : ∀ id other, s.carried id = some other → lease.params.oneAtATime = true →
        other.params.oneAtATime = true → other.params.reviewerId = lease.params.reviewerId →
          other.EndsBefore lease :=
      fun id other hother hone hone' hsame =>
        h.passed _ (hmay.checked hone) id other hother hone' hsame
    constructor
    · intro j other hother
      rw [hcommit] at hother
      obtain ⟨hother, hji⟩ := ClaimTable.written_close.mp hother
      obtain ⟨hthread', huntil', hmay'⟩ := h.written j other hother
      exact ⟨hthread', huntil', hmay'.of_undisturbed (ClaimTable.undisturbed_commit h hji)⟩
    · rw [hcommit]
      intro other hother
      rcases List.mem_cons.mp hother with rfl | hold
      · exact ⟨expiresAt, huntil⟩
      · exact h.logged other hold
    · intro id other hother
      rw [hcarried] at hother
      rw [hcommit]
      change (s.rows.put lease.row).get? id = some other.row
      rw [KeyedMap.get?_put]
      split at hother
      · rename_i hid
        cases hother
        rw [if_pos hid]
      · rename_i hid
        rw [if_neg hid]
        exact h.stored id other hother
    · rw [hcommit]
      refine List.pairwise_cons.mpr ⟨fun older holder hid => ?_, h.ordered⟩
      exact endsBefore_of_claimable h holder hid hrow hclaimable
    · rw [hcommit]
      exact hclose.alone
    · intro check hcheck id other hother hone hsame
      have hcheck' := hcheck
      rw [hcommit] at hcheck'
      rw [hcarried] at hother
      split at hother
      · cases hother
        exact absurd hsame (halone check hcheck hone)
      · exact hclose.passed check hcheck' id other hother hone hsame
    · intro id id' first second hne hfirst hsecond hone hone' hsame
      rw [hcarried] at hfirst hsecond
      split at hfirst
      · rename_i hid
        cases hfirst
        rw [if_neg (fun hid' => hne (hid.symm.trans hid'))] at hsecond
        exact .inr (hexpired id' second hsecond hone hone' hsame.symm)
      · split at hsecond
        · cases hsecond
          exact .inl (hexpired id first hfirst hone' hone hsame)
        · exact h.apart id id' first second hne hfirst hsecond hone hone' hsame

end Ends

/-! ## What the statements do -/

section Statements

variable {s t : ClaimTable} {i j : ℕ} {params : ClaimNextInReviewParams}

/-- A check that finds nothing is remembered. -/
theorem ClaimTable.Lawful.check (h : s.Lawful) {reviewerId : String} {now : ℤ}
    (hfree : ∀ row ∈ s.rows.values, row.isActiveClaimOf reviewerId now = false)
    (halone : ∀ check ∈ s.checked, check.2.1 ≠ reviewerId) :
    ClaimTable.Lawful { s with checked := (i, reviewerId, now) :: s.checked } where
  written j lease hwritten := by
    obtain ⟨hthread, huntil, hmay⟩ := h.written j lease hwritten
    exact ⟨hthread, huntil, hmay.locked, hmay.claimable,
      fun hone => List.mem_cons_of_mem _ (hmay.checked hone)⟩
  logged := h.logged
  stored := h.stored
  ordered := h.ordered
  alone check hcheck check' hcheck' hsame := by
    rcases List.mem_cons.mp hcheck with rfl | hold
    · rcases List.mem_cons.mp hcheck' with rfl | hold'
      · rfl
      · exact absurd hsame.symm (halone check' hold')
    · rcases List.mem_cons.mp hcheck' with rfl | hold'
      · exact absurd hsame (halone check hold)
      · exact h.alone check hold check' hold' hsame
  passed check hcheck id lease hlease hone hsame expiresAt huntil := by
    rcases List.mem_cons.mp hcheck with rfl | hold
    · have hmem := KeyedMap.mem_values_of_get? (h.stored id lease hlease)
      have hinactive := hfree _ hmem
      have hnot : ¬now < expiresAt := by
        simpa [VerificationRequestRow.isActiveClaimOf, huntil.reviewer, huntil.expires, hsame]
          using hinactive
      exact not_lt.mp hnot
    · exact h.passed check hold id lease hlease hone hsame expiresAt huntil
  apart := h.apart

/-- A row that nobody has locked is locked. -/
theorem ClaimTable.Lawful.lock (h : s.Lawful) {id : String} (hfree : s.locks id = none) :
    ClaimTable.Lawful { s with locks := Function.update s.locks id (some i) } where
  written j lease hwritten := by
    obtain ⟨hthread, huntil, hmay⟩ := h.written j lease hwritten
    refine ⟨hthread, huntil, ?_, hmay.claimable, hmay.checked⟩
    have hother : lease.row.id ≠ id := by
      intro hid
      rw [← hid, hmay.locked] at hfree
      cases hfree
    exact (Function.update_of_ne hother _ _).trans hmay.locked
  logged := h.logged
  stored := h.stored
  ordered := h.ordered
  alone := h.alone
  passed := h.passed
  apart := h.apart

/-- A transaction writes what it may. -/
theorem ClaimTable.Lawful.write (h : s.Lawful) {lease : Lease} (hthread : lease.thread = i)
    (huntil : ∃ expiresAt, lease.Until expiresAt)
    (hmay : s.MayClaim i lease.params lease.row.id) :
    ClaimTable.Lawful { s with written := Function.update s.written i (some lease) } where
  written j other hother := by
    by_cases hji : j = i
    · subst hji
      obtain rfl : lease = other := Option.some.inj (by simpa using hother)
      exact ⟨hthread, huntil, hmay.locked, hmay.claimable, hmay.checked⟩
    · obtain ⟨hthread', huntil', hmay'⟩ := h.written j other (by simpa [hji] using hother)
      exact ⟨hthread', huntil', hmay'.locked, hmay'.claimable, hmay'.checked⟩
  logged := h.logged
  stored := h.stored
  ordered := h.ordered
  alone := h.alone
  passed := h.passed
  apart := h.apart

/-- The row that is selected is stored, can be claimed and is not locked. -/
theorem of_nextUnlocked {now : ℤ} {row : VerificationRequestRow}
    (h : s.nextUnlocked now = some row) : s.rows.get? row.id = some row ∧
      row.isClaimableAt now = true ∧ s.locks row.id = none := by
  have hsorted := List.mem_of_head? h
  rw [List.mem_insertionSort] at hsorted
  obtain ⟨hmem, hselected⟩ := List.mem_filter.mp hsorted
  rw [Bool.and_eq_true, Option.isNone_iff_eq_none] at hselected
  exact ⟨KeyedMap.get?_of_mem_values hmem, hselected.1, hselected.2⟩

/-- A duration that is not negative ends no earlier than it begins. -/
theorem le_claimExpiresAt {expiresAt : ℤ} (h : Number.le (.finite 0) params.claimTtlMs = true)
    (hexpires : params.claimExpiresAt = some expiresAt) : params.now ≤ expiresAt := by
  unfold ClaimNextInReviewParams.claimExpiresAt at hexpires
  split at hexpires
  · rename_i ttlMs hfinite
    rw [hfinite] at h
    have hnonneg : 0 ≤ ttlMs := by
      simpa [Number.le, Number.lt, Number.strictEq, le_iff_lt_or_eq] using h
    unfold timeClip at hexpires
    split at hexpires
    · rw [Option.some.injEq] at hexpires
      split at hexpires
      · rw [← hexpires, Int.le_floor]
        linarith
      · rw [← hexpires]
        exact_mod_cast (show (params.now : ℚ) ≤ params.now + ttlMs by linarith).trans
          (Int.le_ceil _)
    · cases hexpires
  · cases hexpires

end Statements

/-! ## The walk through a call -/

section Walk

open PrismaVerificationRequestRepository

variable {s t : ClaimTable} {i j : ℕ} {params : ClaimNextInReviewParams}

/-- The lease that the callback returns is the one that the transaction has written. -/
def HasWritten (i : ℕ) (params : ClaimNextInReviewParams) (s : ClaimTable)
    (result : Option ClaimNextOutcome) : Prop :=
  ∀ request, result = some (.claimed request) →
    ∃ row, s.written i = some ⟨i, params, row⟩ ∧ toDomain row = .ok request

/-- The lease that the call returns was committed. -/
def HasCommitted (i : ℕ) (params : ClaimNextInReviewParams) (_ s : ClaimTable)
    (result : Option ClaimNextOutcome) : Prop :=
  ∀ request, result = some (.claimed request) →
    ∃ row, ⟨i, params, row⟩ ∈ s.log ∧ toDomain row = .ok request

/-- A callback that returns no claimed request has nothing to show. -/
theorem safe_ret_unclaimed {result : Option ClaimNextOutcome}
    (h : ∀ request, result ≠ some (.claimed request)) :
    Safe claimProtocol ClaimTable.serve Separate i (HasWritten i params) (.ret result) s :=
  fun _ _ _ request hresult => absurd hresult (h request)

/-- A statement that changes nothing for the others leads on. -/
theorem safe_update {row : VerificationRequestRow} (hlocked : s.locks row.id = some i)
    (hstored : s.rows.get? row.id = some row) (hclaimable : row.isClaimableAt params.now = true)
    (hchecked : params.oneAtATime = true → (i, params.reviewerId, params.now) ∈ s.checked) :
    Safe claimProtocol ClaimTable.serve Separate i (HasWritten i params) (do
      match ← updateClaim row.id params with
      | none => return none
      | some updated =>
        match toDomain updated with
        | .error _ => return none
        | .ok request => return some (.claimed request)) s := by
  intro t ω answer u hrely hinv hallowed hserve
  have hrow : t.rows.get? row.id = some row := (hrely.rows row.id hlocked).trans hstored
  have hmay : t.MayClaim i params row.id :=
    ⟨hrely.locks row.id hlocked, ⟨row, hrow, hclaimable⟩,
      fun hone => hrely.checked _ (hchecked hone) rfl⟩
  cases ω with
  | failed =>
    cases hserve
    exact ⟨hinv, fun j _ => claimProtocol.rely_refl j _, safe_ret_unclaimed fun _ => nofun⟩
  | served =>
    simp only [ClaimTable.serve, hrow] at hserve
    split at hserve
    · rename_i stored expiresAt hsome hexpires
      cases hsome
      cases hserve
      have hordered := le_claimExpiresAt hallowed hexpires
      refine ⟨hinv.write rfl ⟨expiresAt, rfl, rfl, rfl, hordered⟩ hmay, fun j hji => ?_, ?_⟩
      · exact ⟨fun _ h => h, fun _ _ => rfl, Function.update_of_ne hji _ _, fun _ h _ => h,
          fun _ h => h⟩
      · change Safe _ _ _ i _ (match toDomain _ with | .error _ => _ | .ok _ => _) _
        split
        · exact safe_ret_unclaimed fun _ => nofun
        · rename_i request hrequest
          intro v hrely' _ request' hclaimed
          cases hclaimed
          exact ⟨_, hrely'.written.trans (Function.update_self _ _ _), hrequest⟩
    · cases hserve
      exact ⟨hinv, fun j _ => claimProtocol.rely_refl j _, safe_ret_unclaimed fun _ => nofun⟩

/-- Selecting the next case and assigning it. -/
theorem safe_assignNext
    (hchecked : params.oneAtATime = true → (i, params.reviewerId, params.now) ∈ s.checked) :
    Safe claimProtocol ClaimTable.serve Separate i (HasWritten i params) (assignNext params) s := by
  intro t ω answer u hrely hinv hallowed hserve
  cases ω with
  | failed =>
    cases hserve
    exact ⟨hinv, fun j _ => claimProtocol.rely_refl j _, safe_ret_unclaimed fun _ => nofun⟩
  | served =>
    simp only [ClaimTable.serve] at hserve
    split at hserve
    · cases hserve
      exact ⟨hinv, fun j _ => claimProtocol.rely_refl j _, safe_ret_unclaimed fun _ => nofun⟩
    · rename_i row hnext
      cases hserve
      obtain ⟨hstored, hclaimable, hfree⟩ := of_nextUnlocked hnext
      refine ⟨hinv.lock hfree, fun j hji => ?_, ?_⟩
      · refine ⟨fun id hlocked => ?_, fun _ _ => rfl, rfl, fun _ h _ => h, fun _ h => h⟩
        have hother : id ≠ row.id := by
          rintro rfl
          cases hfree.symm.trans hlocked
        exact (Function.update_of_ne hother _ _).trans hlocked
      · exact safe_update (Function.update_self _ _ _) hstored hclaimable
          fun hone => hrely.checked _ (hchecked hone) rfl

/-- The transaction commits what its callback has written. -/
theorem safe_transaction {callback : SqlProgram (Option ClaimNextOutcome)} {begun : ClaimTable}
    (h : Safe claimProtocol ClaimTable.serve Separate i (HasWritten i params) callback s) :
    Safe claimProtocol ClaimTable.serve Separate i (HasCommitted i params begun)
      (transaction callback) s := by
  refine h.bind fun t result hwritten => ?_
  cases result with
  | none =>
    intro u ω answer v _ hinv _ hserve
    have hclosed : v = u.close i := by
      cases ω <;> cases hserve <;> rfl
    subst hclosed
    exact ⟨hinv.close i, fun j hji => ClaimTable.undisturbed_close hji,
      fun _ _ _ request hclaimed => nomatch hclaimed⟩
  | some outcome =>
    intro u ω answer v hrely hinv _ hserve
    cases ω with
    | failed =>
      cases hserve
      exact ⟨hinv.close i, fun j hji => ClaimTable.undisturbed_close hji,
        fun _ _ _ request hclaimed => nomatch hclaimed⟩
    | served =>
      cases hserve
      refine ⟨hinv.commit i, fun j hji => ClaimTable.undisturbed_commit hinv hji, ?_⟩
      intro w hrely' _ request hclaimed
      cases hclaimed
      obtain ⟨row, hrow, hrequest⟩ := hwritten request rfl
      refine ⟨row, hrely'.log _ ?_, hrequest⟩
      rw [ClaimTable.commit_of_written (hrely.written.trans hrow)]
      exact List.mem_cons_self

/-- Every call keeps the law of the table, and returns what it has committed. -/
theorem safe_claimNextInReview (begun : ClaimTable) :
    Safe claimProtocol ClaimTable.serve Separate i (HasCommitted i params begun)
      (PrismaVerificationRequestRepository.claimNextInReview params) s := by
  refine safe_transaction ?_
  split
  · intro t ω answer u _ hinv hallowed hserve
    cases ω with
    | failed =>
      cases hserve
      exact ⟨hinv, fun j _ => claimProtocol.rely_refl j _, safe_ret_unclaimed fun _ => nofun⟩
    | served =>
      simp only [ClaimTable.serve] at hserve
      split at hserve
      · cases hserve
        exact ⟨hinv, fun j _ => claimProtocol.rely_refl j _, safe_ret_unclaimed fun _ => nofun⟩
      · rename_i hnone
        cases hserve
        have hfree : ∀ row ∈ t.rows.values,
            row.isActiveClaimOf params.reviewerId params.now = false := by
          simpa using hnone
        have halone : ∀ check ∈ t.checked, check.2.1 ≠ params.reviewerId := by
          simpa [Separate, separate] using hallowed
        refine ⟨hinv.check hfree halone, fun j _ => ?_, ?_⟩
        · exact ⟨fun _ h => h, fun _ _ => rfl, rfl, fun _ h _ => List.mem_cons_of_mem _ h,
            fun _ h => h⟩
        · exact safe_assignNext fun _ => List.mem_cons_self
  · rename_i hone
    exact safe_assignNext fun hone' => absurd hone' hone

end Walk

/-! ## Runs -/

/-- What a row is read as has its id and its claim. -/
theorem of_toDomain {row : VerificationRequestRow} {request : VerificationRequest}
    (h : toDomain row = .ok request) :
    request.id = row.id ∧ request.assignment = assignmentOf row := by
  unfold toDomain at h
  split at h
  · cases h
  · cases htype : fromDbVerificationType row.type row.id with
    | error error =>
      rw [htype] at h
      cases h
    | ok type =>
      rw [htype] at h
      change VerificationRequest.reconstitute _ = _ at h
      unfold VerificationRequest.reconstitute at h
      split at h
      · cases h
      split at h
      · cases h
      split at h
      · cases h
      · cases h
        exact ⟨rfl, rfl⟩

section Runs

variable {rows : KeyedMap VerificationRequestRow.id} {P : ClaimPool}

/-- The claim of a lease that lasts until some instant. -/
def Lease.claim (lease : Lease) (expiresAt : ℤ) : ReviewAssignment :=
  ⟨lease.row.id, lease.params.reviewerId, lease.params.now, some expiresAt⟩

theorem Lease.Until.assignmentOf_eq {lease : Lease} {expiresAt : ℤ} (h : lease.Until expiresAt) :
    assignmentOf lease.row = some (lease.claim expiresAt) := by
  rw [assignmentOf, h.reviewer, h.assigned, h.expires]
  rfl

/-- A lease that has ended before a later one covers no instant of it. -/
theorem Lease.EndsBefore.not_coversAt {lease later : Lease} {expiresAt laterExpires now : ℤ}
    (h : lease.EndsBefore later) (huntil : lease.Until expiresAt)
    (hlater : (later.claim laterExpires).CoversAt now) :
    ¬(lease.claim expiresAt).CoversAt now := by
  rintro ⟨-, hactive⟩
  have hbefore : now < expiresAt := by
    simpa [Lease.claim, ReviewAssignment.isActiveAt] using hactive
  exact absurd ((h expiresAt huntil).trans hlater.1) (not_le.mpr hbefore)

/-- The table in which nothing is going on is lawful. -/
theorem lawful_fresh (rows : KeyedMap VerificationRequestRow.id) :
    (ClaimTable.fresh rows).Lawful where
  written _ _ h := by cases h
  logged _ h := by cases h
  stored _ _ h := by cases h
  ordered := .nil
  alone _ h := by cases h
  passed _ h := by cases h
  apart _ _ _ _ _ h := by cases h

/-- Every run keeps the law of the table. -/
theorem sound_of_run_claims
    (hrun : RunWhile ClaimPool.step (fun P e => P.Allows Separate e)
      (Pool.initial (ClaimTable.fresh rows)) P) :
    Sound claimProtocol ClaimTable.serve Separate (fun _ _ => True)
      (fun i params begun s result => HasCommitted i params begun s result) P :=
  sound_of_run (fun _ _ _ _ _ => trivial) (fun _ _ begun _ _ => safe_claimNextInReview begun)
    (sound_initial (lawful_fresh rows) fun _ => trivial) hrun

/-- The claim that a call has returned is that of a lease in the log. -/
theorem lease_of_claimed
    (hrun : RunWhile ClaimPool.step (fun P e => P.Allows Separate e)
      (Pool.initial (ClaimTable.fresh rows)) P)
    {i : ℕ} {params : ClaimNextInReviewParams} {request : VerificationRequest}
    {claim : ReviewAssignment} (hclaimed : P.Claimed i params request)
    (hclaim : request.assignment = some claim) :
    ∃ lease ∈ P.store.log, lease.thread = i ∧ lease.params = params ∧
      lease.row.id = request.id ∧ ∃ expiresAt, lease.Until expiresAt ∧
        claim = lease.claim expiresAt := by
  have hsound := sound_of_run_claims hrun
  have hlawful : P.store.Lawful := hsound.inv
  obtain ⟨begun, hthread⟩ := Pool.threads_of_returned hclaimed
  have hcommitted : HasCommitted i params begun P.store (some (.claimed request)) :=
    hsound.done_of_ret hthread
  obtain ⟨row, hmem, hrequest⟩ := hcommitted request rfl
  obtain ⟨hid, hassignment⟩ := of_toDomain hrequest
  obtain ⟨expiresAt, huntil⟩ := hlawful.logged _ hmem
  have hof := huntil.assignmentOf_eq
  refine ⟨_, hmem, rfl, rfl, hid.symm, expiresAt, huntil, ?_⟩
  rw [hclaim] at hassignment
  exact Option.some.inj (hassignment.trans hof)

/-- Of two leases on one request, one has ended before the other. -/
theorem endsBefore_or_endsBefore {s : ClaimTable} (h : s.Lawful) {lease other : Lease}
    (hlease : lease ∈ s.log) (hother : other ∈ s.log) (hne : lease ≠ other)
    (hid : lease.row.id = other.row.id) : lease.EndsBefore other ∨ other.EndsBefore lease := by
  have : Std.Symm fun a b : Lease => a.row.id = b.row.id →
      a.EndsBefore b ∨ b.EndsBefore a := ⟨fun a b hab hba => (hab hba.symm).symm⟩
  have hpairwise : s.log.Pairwise fun a b => a.row.id = b.row.id →
      a.EndsBefore b ∨ b.EndsBefore a :=
    h.ordered.imp fun hab hid => .inr (hab hid)
  exact hpairwise.forall hlease hother hne hid

/-- A lease that the stored row still has, and that is active, is the one that is carried. -/
theorem carried_of_carries {s : ClaimTable} (h : s.Lawful) {lease : Lease} {expiresAt now : ℤ}
    {request : VerificationRequest} (hlease : lease ∈ s.log) (huntil : lease.Until expiresAt)
    (hid : lease.row.id = request.id) (hcarries : s.Carries request)
    (hclaim : request.assignment = some (lease.claim expiresAt))
    (hcovers : (lease.claim expiresAt).CoversAt now) : s.carried request.id = some lease := by
  obtain ⟨latest, hlatest⟩ : ∃ latest, s.carried request.id = some latest := by
    rw [← Option.isSome_iff_exists, ClaimTable.carried, List.find?_isSome]
    exact ⟨lease, hlease, by simp [hid]⟩
  obtain ⟨hmem, hlatestId⟩ := of_carried hlatest
  obtain ⟨latestExpires, hlatestUntil⟩ := h.logged latest hmem
  obtain ⟨row, hrow, hassignment⟩ := hcarries
  -- the row that is stored has both claims, so that they are the same
  have hsame : lease.claim expiresAt = latest.claim latestExpires := by
    obtain rfl := Option.some.inj ((h.stored _ _ hlatest).symm.trans hrow)
    rw [hlatestUntil.assignmentOf_eq, hclaim] at hassignment
    exact (Option.some.inj hassignment).symm
  by_contra hnot
  have hne : lease ≠ latest := fun heq => hnot (heq ▸ hlatest)
  have hcovers' := hsame ▸ hcovers
  rcases endsBefore_or_endsBefore h hlease hmem hne (hid.trans hlatestId.symm) with
    hends | hends
  · exact hends.not_coversAt huntil hcovers' hcovers
  · exact hends.not_coversAt hlatestUntil hcovers hcovers'

/-- In runs in which the checks of one reviewer do not overlap and no claim lasts a negative time,
leases on one request do not overlap, and a reviewer who claims one case at a time holds one. -/
theorem promises_kept
    (hrun : RunWhile ClaimPool.step (fun P e => P.Allows Separate e)
      (Pool.initial (ClaimTable.fresh rows)) P) : PromisesKept P := by
  have hlawful : P.store.Lawful := (sound_of_run_claims hrun).inv
  constructor
  · intro i j params params' request request' claim claim' hij hclaimed hclaimed' hid hclaim hclaim'
      now ⟨hcovers, hcovers'⟩
    obtain ⟨lease, hmem, hthread, -, hrow, expiresAt, huntil, rfl⟩ :=
      lease_of_claimed hrun hclaimed hclaim
    obtain ⟨lease', hmem', hthread', -, hrow', expiresAt', huntil', rfl⟩ :=
      lease_of_claimed hrun hclaimed' hclaim'
    have hne : lease ≠ lease' := by
      rintro rfl
      exact hij (hthread.symm.trans hthread')
    have hsame : lease.row.id = lease'.row.id := hrow.trans (hid.trans hrow'.symm)
    rcases endsBefore_or_endsBefore hlawful hmem hmem' hne hsame with hends | hends
    · exact hends.not_coversAt huntil hcovers' hcovers
    · exact hends.not_coversAt huntil' hcovers hcovers'
  · intro i j params params' request request' claim claim' hij hone hone' hreviewer hclaimed
      hclaimed' hcarries hcarries' hclaim hclaim' now ⟨hcovers, hcovers'⟩
    obtain ⟨lease, hmem, hthread, rfl, hrow, expiresAt, huntil, rfl⟩ :=
      lease_of_claimed hrun hclaimed hclaim
    obtain ⟨lease', hmem', hthread', rfl, hrow', expiresAt', huntil', rfl⟩ :=
      lease_of_claimed hrun hclaimed' hclaim'
    have hcarried := carried_of_carries hlawful hmem huntil hrow hcarries hclaim hcovers
    have hcarried' := carried_of_carries hlawful hmem' huntil' hrow' hcarries' hclaim' hcovers'
    have hne : request.id ≠ request'.id := by
      intro hid
      rw [hid, hcarried', Option.some.injEq] at hcarried
      exact hij (hthread.symm.trans (hcarried ▸ hthread'))
    rcases hlawful.apart _ _ lease lease' hne hcarried hcarried' hone hone' hreviewer with
      hends | hends
    · exact hends.not_coversAt huntil hcovers' hcovers
    · exact hends.not_coversAt huntil' hcovers hcovers'

end Runs

/-! ## Two calls of one reviewer -/

/-- A row in review that nobody has claimed. -/
def sampleRow (id : String) (createdAt : ℤ) : VerificationRequestRow where
  id := id
  subjectUserId := "0a1f3c52-77c4-4f0a-9b2e-5d7f6f0c1b11"
  organizationId := "c6f1d2e3-9b8a-4c7d-8e6f-0a1b2c3d4e01"
  type := "liveness"
  status := "in_review"
  assignedReviewerId := none
  assignedAt := none
  claimExpiresAt := none
  decidedByReviewerId := none
  decidedAt := none
  decision := none
  decisionNote := none
  needsMoreInfoNote := none
  createdAt := createdAt
  updatedAt := createdAt

/-- Two rows in review. -/
def sampleRows : KeyedMap VerificationRequestRow.id :=
  (KeyedMap.empty.put (sampleRow "first" 1767225600000)).put (sampleRow "second" 1767225601000)

/-- What the reviewer asks for. -/
def sampleParams : ClaimNextInReviewParams := ⟨"reviewer", 1767225660000, .finite 900000, true⟩

/-- The request of a row that the reviewer has claimed. -/
def sampleClaimed (id : String) (createdAt : ℤ) : VerificationRequest where
  id := id
  subjectUserId := "0a1f3c52-77c4-4f0a-9b2e-5d7f6f0c1b11"
  organizationId := "c6f1d2e3-9b8a-4c7d-8e6f-0a1b2c3d4e01"
  type := .liveness
  status := .inReview
  assignment := some ⟨id, "reviewer", 1767225660000, some 1767226560000⟩
  createdAt := createdAt
  updatedAt := 1767225660000

/-- Both calls check before either of them claims. -/
def sampleClaimedTwice : ClaimPool :=
  (exec ClaimPool.step (Pool.initial (ClaimTable.fresh sampleRows))
    ([.start 0 sampleParams, .start 1 sampleParams, .answer 0 .served, .answer 1 .served] ++
      List.replicate 3 (.answer 0 .served) ++ List.replicate 3 (.answer 1 .served))).get
    (by decide +kernel)

/-- One reviewer holds two claims that he has taken one at a time. -/
theorem claims_of_one_reviewer :
    Run ClaimPool.step (Pool.initial (ClaimTable.fresh sampleRows)) sampleClaimedTwice ∧
      ¬PromisesKept sampleClaimedTwice := by
  refine ⟨runWhile_get _, fun hkept => ?_⟩
  have hfirst : sampleClaimedTwice.Claimed 0 sampleParams
      (sampleClaimed "first" 1767225600000) := by
    unfold ClaimPool.Claimed
    decide +kernel
  have hsecond : sampleClaimedTwice.Claimed 1 sampleParams
      (sampleClaimed "second" 1767225601000) := by
    unfold ClaimPool.Claimed
    decide +kernel
  have hcarries : ∀ {request : VerificationRequest},
      (sampleClaimedTwice.store.rows.get? request.id).map assignmentOf = some request.assignment →
        sampleClaimedTwice.store.Carries request :=
    fun h => Option.map_eq_some_iff.mp h
  refine hkept.oneAtATime 0 1 sampleParams sampleParams _ _ _ _ (by decide) rfl rfl rfl hfirst
    hsecond (hcarries (by decide +kernel)) (hcarries (by decide +kernel)) rfl rfl 1767225660000 ?_
  exact ⟨⟨le_rfl, rfl⟩, le_rfl, rfl⟩

/-- The second call checks when the first one has ended. -/
def sampleClaimedInTurn : ClaimPool :=
  (execWhile ClaimPool.step (fun P e => P.Allows Separate e)
    (Pool.initial (ClaimTable.fresh sampleRows))
    (.start 0 sampleParams :: List.replicate 4 (.answer 0 .served) ++
      .start 1 sampleParams :: List.replicate 2 (.answer 1 .served))).get (by decide +kernel)

/-- It is refused. -/
theorem promises_kept_sample :
    PromisesKept sampleClaimedInTurn ∧
      sampleClaimedInTurn.returned 1 = some ⟨sampleParams, some .alreadyClaiming⟩ :=
  ⟨promises_kept (runWhile_get _), by decide +kernel⟩

end Verixa.Verification
