import Verixa.Concurrency.Solo
import Verixa.Credentials.CredentialWork

/-!
# A password use case that runs alone

What the calls of a use case do when nobody else moves, as equivalences by which `simp` goes
through a program from call to call.  The clock is read any number of times during a run, and
shows something between the moments at which the run starts and finishes.

A run is said to keep the records when it leaves the users, the credentials, the reset tokens, the
counts of the limiters and the records of the brute-force policy as they were.  What it has noted
in the journal, and that it has opened and closed a transaction, are no records.
-/

namespace Verixa.Credentials

open Concurrency CredentialStore CredentialCalls

/-! ## Runs between two moments -/

/-- The clock shows nothing before the one moment and nothing after the other. -/
def ClockWithin (start finish : ℤ) (_ : ℕ) (_ : CredentialStore) (_ : CredentialRequest)
    (ω : CredentialInput) : Prop :=
  ∀ t, ω = .time t → start ≤ t ∧ t ≤ finish

/-- Thread `i` can run the program alone, between the two moments. -/
abbrev RunsWithin (D : CredentialDeployment) (start finish : ℤ) (i : ℕ) {γ : Type} :
    CredentialProgram γ → CredentialStore → γ → CredentialStore → Prop :=
  Runs D.serve (ClockWithin start finish) i

/-- Two stores that hold the same records. -/
structure SameRecords (s t : CredentialStore) : Prop where
  usersById : t.usersById = s.usersById
  credentialsByUserId : t.credentialsByUserId = s.credentialsByUserId
  passwordResetTokensById : t.passwordResetTokensById = s.passwordResetTokensById
  rateLimiterCalls : t.rateLimiterCalls = s.rateLimiterCalls
  attemptRecords : t.attemptRecords = s.attemptRecords

theorem SameRecords.refl (s : CredentialStore) : SameRecords s s := ⟨rfl, rfl, rfl, rfl, rfl⟩

/-- The same records have the same users. -/
theorem SameRecords.findUserById {s t : CredentialStore} (h : SameRecords s t) (id : String) :
    t.findUserById id = s.findUserById id := by
  rw [CredentialStore.findUserById, h.usersById]
  rfl

/-- Finding something changes no record. -/
theorem sameRecords_noteFound {α : Type} (s : CredentialStore) (i : ℕ) (deed : α → CredentialDeed)
    (found : Option α) : SameRecords s (s.noteFound i deed found) := by
  cases found <;> exact ⟨rfl, rfl, rfl, rfl, rfl⟩

section Calls

variable {D : CredentialDeployment} {start finish : ℤ} {i : ℕ} {s t : CredentialStore}

/-- The outside has no choice but to serve the call. -/
def OnlyServed : CredentialRequest → Prop
  | .now | .createId | .hash _ | .revokeAllForUser _ | .resolvePolicy _ | .listActiveMethods _ =>
    False
  | _ => True

/-- A call that can only be served has one answer. -/
theorem runs_served {q : CredentialRequest} {r r' : q.Answer} {t' : CredentialStore}
    (hq : OnlyServed q) (hserved : D.serve i s q .served = some (r', t')) :
    RunsWithin D start finish i (Program.perform q : CredentialProgram q.Answer) s r t ↔
      r = r' ∧ t = t' := by
  rw [RunsWithin, runs_perform]
  constructor
  · rintro ⟨ω, -, hserve⟩
    have hω : ω = .served := by
      cases q <;> cases ω <;> first | rfl | exact False.elim hq | cases hserve
    rw [hω, hserved] at hserve
    cases hserve
    exact ⟨rfl, rfl⟩
  · rintro ⟨rfl, rfl⟩
    refine ⟨.served, ?_, hserved⟩
    intro t h
    cases h

/-- The clock. -/
@[simp] theorem runs_now {n : ℤ} :
    RunsWithin D start finish i now s n t ↔ (start ≤ n ∧ n ≤ finish) ∧ t = s := by
  refine (runs_perform (q := CredentialRequest.now)).trans ⟨?_, ?_⟩
  · rintro ⟨ω, hclock, hserve⟩
    cases ω <;> cases hserve
    exact ⟨hclock _ rfl, rfl⟩
  · rintro ⟨hn, rfl⟩
    refine ⟨.time n, ?_, rfl⟩
    intro t h
    cases h
    exact hn

/-- A hash that was made is one of the password. -/
@[simp] theorem runs_hash_some {plaintext hash : String} :
    RunsWithin D start finish i (CredentialCalls.hash plaintext) s (some hash) t ↔
      D.hasher.hashes plaintext hash = true ∧ t = s := by
  refine (runs_perform (q := CredentialRequest.hash plaintext)).trans ⟨?_, ?_⟩
  · rintro ⟨ω, -, hserve⟩
    have hhashes := hashes_of_serve hserve hash rfl
    cases ω with
    | text hash' =>
      simp only [CredentialDeployment.serve, serve] at hserve
      split at hserve <;> cases hserve
      exact ⟨hhashes, rfl⟩
    | _ => cases hserve
  · rintro ⟨hhashes, rfl⟩
    refine ⟨.text hash, ?_, by simp [CredentialDeployment.serve, serve, hhashes]⟩
    intro t h
    cases h

variable {key : RateLimitKey}

@[simp] theorem runs_checkRateLimit {limit : RateLimitResult} :
    RunsWithin D start finish i (checkRateLimit key) s limit t ↔
      limit = D.rateLimiter.check key (s.rateLimiterCalls key) ∧ t = s :=
  runs_served (q := .checkRateLimit key) trivial rfl

@[simp] theorem runs_recordRateLimitFailure {a : Unit} :
    RunsWithin D start finish i (recordRateLimitFailure key) s a t ↔
      a = () ∧ t = s.countCall key .recordFailure :=
  runs_served (q := .recordRateLimitFailure key) trivial rfl

@[simp] theorem runs_checkAttemptLimit {limit : Option RateLimitResult} :
    RunsWithin D start finish i (checkAttemptLimit key) s limit t ↔
      limit = ((D.bruteForce.bind BruteForcePolicy.limiter).map fun limiter =>
        limiter.check key (s.rateLimiterCalls key)) ∧ t = s :=
  runs_served (q := .checkAttemptLimit key) trivial rfl

variable {text : String}

@[simp] theorem runs_readAttempts {record : AttemptRecord} :
    RunsWithin D start finish i (readAttempts text) s record t ↔
      record = s.attemptRecords text ∧ t = s :=
  runs_served (q := .readAttempts text) trivial rfl

@[simp] theorem runs_clearAttempts {a : Unit} :
    RunsWithin D start finish i (clearAttempts text) s a t ↔
      a = () ∧ t = s.setAttempts text {} :=
  runs_served (q := .clearAttempts text) trivial rfl

@[simp] theorem runs_recordAttempt {lockedUntil : Option ℤ} {a : Unit} :
    RunsWithin D start finish i (recordAttempt text lockedUntil) s a t ↔
      a = () ∧ t = s.setAttempts text ⟨(s.attemptRecords text).failedAttempts + 1, lockedUntil⟩ :=
  runs_served (q := .recordAttempt text lockedUntil) trivial rfl

@[simp] theorem runs_burnTime {a : Unit} :
    RunsWithin D start finish i (burnTime text) s a t ↔ a = () ∧ t = s :=
  runs_served (q := .burnTime text) trivial rfl

@[simp] theorem runs_verify {hash : String} {isMatch : Bool} :
    RunsWithin D start finish i (verify text hash) s isMatch t ↔
      isMatch = D.hasher.verify text hash ∧ t = s.note i (.compared text hash) :=
  runs_served (q := .verify text hash) trivial rfl

@[simp] theorem runs_findUserByEmail {email : Email} {found : Option User} :
    RunsWithin D start finish i (CredentialCalls.findUserByEmail email) s found t ↔
      found = s.findUserByEmail email ∧ t = s :=
  runs_served (q := .findUserByEmail email) trivial rfl

@[simp] theorem runs_findUserById {found : Option User} :
    RunsWithin D start finish i (CredentialCalls.findUserById text) s found t ↔
      found = s.findUserById text ∧ t = s :=
  runs_served (q := .findUserById text) trivial rfl

variable {useCase : CredentialUseCase}

@[simp] theorem runs_findCredentialByUserId {found : Option Credential} :
    RunsWithin D start finish i (findCredentialByUserId useCase text) s found t ↔
      found = s.credentialsByUserId.get? text ∧
        t = s.noteFound i (.foundCredential useCase) (s.credentialsByUserId.get? text) :=
  runs_served (q := .findCredentialByUserId useCase text) trivial rfl

@[simp] theorem runs_saveCredential {credential : Credential} {a : Unit} :
    RunsWithin D start finish i (CredentialCalls.saveCredential useCase credential) s a t ↔
      a = () ∧ t = s.saveCredential i useCase credential :=
  runs_served (q := .saveCredential useCase credential) trivial rfl

@[simp] theorem runs_findResetTokenByHash {found : Option PasswordResetToken} :
    RunsWithin D start finish i (CredentialCalls.findResetTokenByHash text) s found t ↔
      found = s.findResetTokenByHash text ∧
        t = s.noteFound i .foundResetToken (s.findResetTokenByHash text) :=
  runs_served (q := .findResetTokenByHash text) trivial rfl

@[simp] theorem runs_saveResetToken {token : PasswordResetToken} {a : Unit} :
    RunsWithin D start finish i (CredentialCalls.saveResetToken token) s a t ↔
      a = () ∧ t = s.saveResetToken i token :=
  runs_served (q := .saveResetToken token) trivial rfl

theorem runs_begin {a : Unit} :
    RunsWithin D start finish i (Program.perform CredentialRequest.begin : CredentialProgram Unit)
      s a t ↔ a = () ∧ t = { s with openTransactions := i :: s.openTransactions } :=
  runs_served (q := .begin) trivial rfl

theorem runs_finish {a : Unit} :
    RunsWithin D start finish i (Program.perform CredentialRequest.finish : CredentialProgram Unit)
      s a t ↔
        a = () ∧ t = { s with openTransactions := s.openTransactions.filter fun j => j ≠ i } :=
  runs_served (q := .finish) trivial rfl

/-- A transaction. -/
@[simp] theorem runs_run {α : Type} {work : CredentialProgram α} {a : α} :
    RunsWithin D start finish i (run work) s a t ↔
      ∃ u, RunsWithin D start finish i work
          { s with openTransactions := i :: s.openTransactions } a u ∧
        t = { u with openTransactions := u.openTransactions.filter fun j => j ≠ i } := by
  constructor
  · intro h
    obtain ⟨_, v, hbegin, h⟩ := runs_bind.mp h
    obtain ⟨-, rfl⟩ := runs_begin.mp hbegin
    obtain ⟨outcome, u, hwork, h⟩ := runs_bind.mp h
    obtain ⟨_, w, hfinish, h⟩ := runs_bind.mp h
    obtain ⟨-, rfl⟩ := runs_finish.mp hfinish
    obtain ⟨rfl, rfl⟩ := runs_ret.mp h
    exact ⟨u, hwork, rfl⟩
  · rintro ⟨u, hwork, rfl⟩
    refine runs_bind.mpr ⟨(), _, runs_begin.mpr ⟨rfl, rfl⟩, ?_⟩
    refine runs_bind.mpr ⟨a, u, hwork, ?_⟩
    exact runs_bind.mpr ⟨(), _, runs_finish.mpr ⟨rfl, rfl⟩, runs_ret.mpr ⟨rfl, rfl⟩⟩

/-- What the outside may add to a call. -/
def someInput (start : ℤ) : CredentialRequest → CredentialInput
  | .now => .time start
  | .createId => .text ""
  | .hash _ => .failed
  | .resolvePolicy _ => .level .optional
  | .listActiveMethods _ => .methods []
  | _ => .served

/-- Between two moments every program can run to its end. -/
theorem exists_runsWithin {γ : Type} (h : start ≤ finish) (p : CredentialProgram γ)
    (s : CredentialStore) : ∃ a t, RunsWithin D start finish i p s a t := by
  refine exists_runs (fun s q => ?_) p s
  have hclock : ClockWithin start finish i s q (someInput start q) := by
    intro t ht
    cases q <;> cases ht
    exact ⟨le_rfl, h⟩
  cases q <;> exact ⟨_, _, _, hclock, rfl⟩

end Calls

/-! ## The brute-force policy -/

section Gate

variable (D : CredentialDeployment) (s : CredentialStore) (scope : RateLimitAction)
  (identifier : String)

/-- Whether the brute-force policy lets an attempt through when its clock shows `now`. -/
def gateOpens (now : ℤ) : Bool :=
  match D.bruteForce with
  | none => true
  | some policy =>
    !(s.attemptRecords (BruteForcePolicy.key D.toLowerCase scope identifier)).lockedUntil.any
        (fun time => decide (now < time)) &&
      policy.limiter.all fun limiter =>
        let key : RateLimitKey :=
          { action := scope, identifier := D.toLowerCase (Encoding.trim identifier) }
        (limiter.check key (s.rateLimiterCalls key)).allowed

/-- What the policy leaves when it has been asked: a lock that has elapsed is forgotten. -/
def afterGate (now : ℤ) : CredentialStore :=
  let key := BruteForcePolicy.key D.toLowerCase scope identifier
  if D.bruteForce.isSome ∧ (s.attemptRecords key).lockedUntil.any fun time => decide (time ≤ now)
  then s.setAttempts key {} else s

/-- Asking the policy changes none but its own records. -/
theorem afterGate_eq (now : ℤ) : ∃ records, afterGate D s scope identifier now =
    { s with attemptRecords := records } := by
  unfold afterGate
  dsimp only
  split
  · exact ⟨_, rfl⟩
  · exact ⟨_, rfl⟩

variable {D s scope identifier} {start finish : ℤ} {i : ℕ} {t : CredentialStore}

/-- A gate that has opened stays open. -/
theorem gateOpens_mono {now later : ℤ} (h : gateOpens D s scope identifier now = true)
    (hle : now ≤ later) : gateOpens D s scope identifier later = true := by
  unfold gateOpens at h ⊢
  cases hpolicy : D.bruteForce with
  | none => rfl
  | some policy =>
    simp only [hpolicy, Bool.and_eq_true, Bool.not_eq_true', Option.any_eq_false,
      decide_eq_false_iff_not, not_lt] at h ⊢
    exact ⟨fun time htime => (h.1 time htime).trans hle, h.2⟩

theorem runs_readRemainingLockMs (h : start ≤ finish) {lockedUntil : Option ℤ} {ms : ℤ} :
    RunsWithin D start finish i (BruteForcePolicy.readRemainingLockMs lockedUntil) s ms t ↔
      ∃ now, (start ≤ now ∧ now ≤ finish) ∧
        ms = BruteForcePolicy.remainingLockMs lockedUntil now ∧ t = s := by
  cases lockedUntil with
  | none =>
    refine Iff.trans runs_ret ⟨fun hret => ⟨start, ⟨le_rfl, h⟩, hret⟩, ?_⟩
    rintro ⟨now, -, hret⟩
    exact hret
  | some time =>
    simp [BruteForcePolicy.readRemainingLockMs, runs_bind, and_assoc]

theorem runs_clearElapsed {key : String} {lockedUntil : Option ℤ} {ms : ℤ} {a : Unit} :
    RunsWithin D start finish i (BruteForcePolicy.clearElapsed key lockedUntil ms) s a t ↔
      t = if ms = 0 ∧ lockedUntil.isSome then s.setAttempts key {} else s := by
  unfold BruteForcePolicy.clearElapsed
  split <;> simp

/-- How long a limiter still refuses changes nothing. -/
theorem eq_of_runs_readLimiterSeconds {limit : Option RateLimitResult} {seconds : Option ℤ}
    (h : RunsWithin D start finish i (BruteForcePolicy.readLimiterSeconds limit) s seconds t) :
    t = s := by
  unfold BruteForcePolicy.readLimiterSeconds at h
  split at h
  · exact (runs_ret.mp h).2
  · split at h
    · exact (runs_ret.mp h).2
    · obtain ⟨now, u, hnow, h⟩ := runs_bind.mp h
      rw [(runs_ret.mp h).2, (runs_now.mp hnow).2]

/-- What is read of a lock says whether it holds. -/
theorem decide_remainingLockMs_pos (lockedUntil : Option ℤ) (now : ℤ) :
    decide (0 < BruteForcePolicy.remainingLockMs lockedUntil now) =
      lockedUntil.any fun time => decide (now < time) := by
  cases lockedUntil <;> simp [BruteForcePolicy.remainingLockMs]

/-- What is read of a lock says whether it has elapsed. -/
theorem remainingLockMs_eq_zero (lockedUntil : Option ℤ) (now : ℤ) :
    BruteForcePolicy.remainingLockMs lockedUntil now = 0 ∧ lockedUntil.isSome = true ↔
      (lockedUntil.any fun time => decide (time ≤ now)) = true := by
  cases lockedUntil <;> simp [BruteForcePolicy.remainingLockMs]

/-- An attempt may proceed when the gate opens at a moment of the run. -/
theorem runs_mayProceed (h : start ≤ finish) {allowed : Bool} :
    RunsWithin D start finish i (mayProceed D scope identifier) s allowed t ↔
      ∃ now, (start ≤ now ∧ now ≤ finish) ∧ allowed = gateOpens D s scope identifier now ∧
        t = afterGate D s scope identifier now := by
  unfold mayProceed gateOpens afterGate
  cases hpolicy : D.bruteForce with
  | none =>
    refine Iff.trans runs_ret ⟨fun hret => ⟨start, ⟨le_rfl, h⟩, by simpa using hret⟩, ?_⟩
    rintro ⟨now, -, hret⟩
    simpa using hret
  | some policy =>
    generalize hkey : BruteForcePolicy.key D.toLowerCase scope identifier = key
    generalize hlimitKey :
      RateLimitKey.mk scope (D.toLowerCase (Encoding.trim identifier)) none = limitKey
    have hcalls : ∀ (p : Prop) [Decidable p],
        (if p then s.setAttempts key {} else s).rateLimiterCalls = s.rateLimiterCalls := by
      intro p _
      split <;> rfl
    have hlimit : ∀ calls, (!((policy.limiter.map fun limiter => limiter.check limitKey calls).any
        fun result => !result.allowed)) =
          policy.limiter.all fun limiter => (limiter.check limitKey calls).allowed := by
      intro calls
      cases policy.limiter <;> simp
    simp only [BruteForcePolicy.check, runs_bind, runs_readAttempts, runs_checkAttemptLimit,
      runs_readRemainingLockMs h, runs_clearElapsed, hpolicy, hkey, hlimitKey, Program.pure_eq,
      runs_ret, Option.isSome_some, true_and, Option.bind_some]
    constructor
    · rintro ⟨gate, u, ⟨_, _, ⟨rfl, rfl⟩, ms, _, ⟨now, hnow, rfl, rfl⟩, _, v, rfl, limit, _,
        ⟨rfl, rfl⟩, seconds, w, hseconds, rfl, rfl⟩, rfl, rfl⟩
      simp only [remainingLockMs_eq_zero] at hseconds
      refine ⟨now, hnow, ?_, eq_of_runs_readLimiterSeconds hseconds⟩
      rw [BruteForcePolicy.allowed_decision, hcalls, hlimit, decide_remainingLockMs_pos]
    · rintro ⟨now, hnow, rfl, rfl⟩
      obtain ⟨seconds, w, hseconds⟩ := exists_runsWithin (D := D) (i := i) h
        (BruteForcePolicy.readLimiterSeconds (policy.limiter.map fun limiter =>
          limiter.check limitKey (s.rateLimiterCalls limitKey)))
        (if (s.attemptRecords key).lockedUntil.any fun time => decide (time ≤ now) then
          s.setAttempts key {} else s)
      obtain rfl := eq_of_runs_readLimiterSeconds hseconds
      refine ⟨_, _, ⟨_, _, ⟨rfl, rfl⟩, _, _, ⟨now, hnow, rfl, rfl⟩, (), _, rfl, _, _, ⟨rfl, rfl⟩,
        seconds, _, ?_, rfl, rfl⟩, ?_, rfl⟩
      · simpa only [remainingLockMs_eq_zero, hcalls] using hseconds
      · rw [BruteForcePolicy.allowed_decision, hcalls, hlimit, decide_remainingLockMs_pos]

/-- Counting a failure changes none but the records of the policy. -/
theorem of_runs_countFailure {a : Unit}
    (h : RunsWithin D start finish i (countFailure D scope identifier) s a t) :
    ∃ records, t = { s with attemptRecords := records } := by
  unfold countFailure at h
  split at h
  · exact ⟨s.attemptRecords, (runs_ret.mp h).2⟩
  · obtain ⟨record, u, hread, hrest⟩ := runs_bind.mp h
    obtain ⟨rfl, rfl⟩ := runs_readAttempts.mp hread
    obtain ⟨lockedUntil, v, hlock, hrecord⟩ := runs_bind.mp hrest
    obtain ⟨-, rfl⟩ := runs_recordAttempt.mp hrecord
    unfold BruteForcePolicy.readLockUntil at hlock
    split at hlock
    · obtain ⟨-, rfl⟩ := runs_ret.mp hlock
      exact ⟨_, rfl⟩
    · obtain ⟨now, w, hnow, hret⟩ := runs_bind.mp hlock
      obtain ⟨-, rfl⟩ := runs_now.mp hnow
      obtain ⟨-, rfl⟩ := runs_ret.mp hret
      exact ⟨_, rfl⟩

end Gate

/-! ## In the deployment -/

/-- A use case that is started in a fresh pool and runs alone is a run of the deployment. -/
theorem run_of_runsWithin {D : CredentialDeployment} {start finish : ℤ} {i : ℕ}
    {s t : CredentialStore} {c : CredentialCommand} {result : c.Result}
    (h : RunsWithin D start finish i (D.body c) s result t) :
    ∃ P : CredentialPool, Run D.step (Pool.initial s) P ∧ P.store = t ∧
      P.returned i = some ⟨c, result⟩ := by
  refine ⟨_, (run_of_runs (P := Pool.initial s) D.body rfl h).toRun, rfl, ?_⟩
  simp [Pool.returned]

end Verixa.Credentials
