import Verixa.Credentials.CredentialSafety

/-!
# A password change replaces what was re-authenticated

`ChangePassword.execute` re-authenticates the user in one transaction and replaces the credential
in another, which looks it up again.  Even when transactions are atomic, a reset that commits
between the two is overwritten by a change that knew only the password before it
(`unauthenticated_replaced`).  In runs with atomic transactions in which the second look finds the
hash and the history of the first (`FindsUnchanged`), a change replaces only a credential that the
current password verifies and that does not know the new one (`reauthenticated_replaced`).
-/

namespace Verixa.Credentials

open Concurrency CredentialStore

/-- The call is made inside a transaction, or opens one. -/
def usesRepositories : CredentialRequest → Bool
  | .begin | .findUserByEmail _ | .findUserById _ | .findCredentialByUserId _ _
  | .saveCredential _ _ | .findResetTokenByHash _ | .saveResetToken _ => true
  | _ => false

/-- The call does not get into the transaction of another thread. -/
def atomic (i : ℕ) (s : CredentialStore) (q : CredentialRequest) : Bool :=
  !usesRepositories q || s.openTransactions.all fun j => decide (j = i)

/-- `atomic`, as a condition on the calls of a run: each transaction is one step. -/
def Atomic (i : ℕ) (s : CredentialStore) (q : CredentialRequest) (_ : CredentialInput) : Prop :=
  atomic i s q = true

instance (i : ℕ) (s : CredentialStore) (q : CredentialRequest) (ω : CredentialInput) :
    Decidable (Atomic i s q ω) :=
  inferInstanceAs (Decidable (_ = true))

/-- A change that looks its credential up again finds the hash and the history of the first
look. -/
def findsUnchanged (i : ℕ) (s : CredentialStore) : CredentialRequest → Bool
  | .findCredentialByUserId .changePassword userId =>
    (s.deedsOf i).all fun
      | .foundCredential .changePassword found =>
        (s.credentialsByUserId.get? userId).all fun stored =>
          decide (stored.knownHashes = found.knownHashes)
      | _ => true
  | _ => true

/-- Transactions are atomic, and changes find their credentials unchanged. -/
def AtomicAndFindsUnchanged (i : ℕ) (s : CredentialStore) (q : CredentialRequest)
    (_ : CredentialInput) : Prop :=
  atomic i s q = true ∧ findsUnchanged i s q = true

instance (i : ℕ) (s : CredentialStore) (q : CredentialRequest) (ω : CredentialInput) :
    Decidable (AtomicAndFindsUnchanged i s q ω) :=
  inferInstanceAs (Decidable (_ ∧ _))

/-- A change that has returned ok has replaced a credential, and every credential it has replaced
is verified by the current password it was given and knows no hash that the new one verifies. -/
def ReplacesReauthenticated (D : CredentialDeployment) (P : CredentialPool) : Prop :=
  ∀ i command user, P.returned i = some ⟨.changePassword command, .ok (.ok ⟨user⟩)⟩ →
    (∃ before after, (i, .wroteCredential .changePassword before after) ∈ P.store.journal) ∧
      ∀ before after, (i, .wroteCredential .changePassword before after) ∈ P.store.journal →
        ∃ replaced, before = some replaced ∧
          D.hasher.verify command.currentPassword replaced.passwordHash = true ∧
          ¬ replaced.IsReused D.hasher.verify command.newPassword

/-! ## The law of re-authentication -/

/-- What a change has replaced it has found before, and what it has found twice has the same
hashes. -/
structure ChangesWhatItFinds (s : CredentialStore) : Prop where
  same : ∀ i found found', (i, .foundCredential .changePassword found) ∈ s.journal →
    (i, .foundCredential .changePassword found') ∈ s.journal →
    found.knownHashes = found'.knownHashes
  replaced : ∀ i before after, (i, .wroteCredential .changePassword before after) ∈ s.journal →
    ∃ found, before = some found ∧ (i, .foundCredential .changePassword found) ∈ s.journal

/-- The law of re-authentication, under isolated transactions. -/
def reauthentication : CredentialLaw where
  isolated := True
  inv := ChangesWhatItFinds

variable {D : CredentialDeployment} {i : ℕ} {s u : CredentialStore}

/-- A deed that neither finds nor replaces a credential for a change. -/
theorem ChangesWhatItFinds.of_deed (h : ChangesWhatItFinds s) {deed : CredentialDeed}
    (hjournal : u.journal = (i, deed) :: s.journal)
    (hfound : ∀ found, deed = .foundCredential .changePassword found → ∀ found',
      (i, .foundCredential .changePassword found') ∈ s.journal →
      found.knownHashes = found'.knownHashes)
    (hwrote : ∀ before after, deed = .wroteCredential .changePassword before after →
      ∃ found, before = some found ∧ (i, .foundCredential .changePassword found) ∈ s.journal) :
    ChangesWhatItFinds u where
  same j found found' hj hj' := by
    rw [hjournal] at hj hj'
    rcases List.mem_cons.mp hj with heq | hold <;>
      rcases List.mem_cons.mp hj' with heq' | hold'
    · have hsame := (congrArg Prod.snd heq).trans (congrArg Prod.snd heq').symm
      cases hsame
      rfl
    · obtain ⟨rfl, hdeed⟩ := Prod.mk.inj heq
      exact hfound found hdeed.symm found' hold'
    · obtain ⟨rfl, hdeed⟩ := Prod.mk.inj heq'
      exact (hfound found' hdeed.symm found hold).symm
    · exact h.same j found found' hold hold'
  replaced j before after hj := by
    rw [hjournal] at hj ⊢
    rcases List.mem_cons.mp hj with heq | hj
    · obtain ⟨rfl, hdeed⟩ := Prod.mk.inj heq
      obtain ⟨found, hbefore, hfound'⟩ := hwrote before after hdeed.symm
      exact ⟨found, hbefore, List.mem_cons_of_mem _ hfound'⟩
    · obtain ⟨found, hbefore, hfound'⟩ := h.replaced j before after hj
      exact ⟨found, hbefore, List.mem_cons_of_mem _ hfound'⟩

/-- In atomic transactions no credential is written while the transaction of another thread is
open. -/
theorem credentials_of_atomic {q : CredentialRequest} {ω : CredentialInput} {r : q.Answer}
    (hatomic : atomic i s q = true) (hserve : D.serve i s q ω = some (r, u)) :
    ∀ j ∈ s.openTransactions, j ≠ i → u.credentialsByUserId = s.credentialsByUserId := by
  intro j hj hne
  cases effect_of_serve hserve with
  | untouched _ huntouched => exact huntouched.credentialsByUserId
  | saveCredential useCase credential =>
    have hall : ∀ k ∈ s.openTransactions, k = i := by
      simpa [atomic, usesRepositories] using hatomic
    exact absurd (hall j hj) hne
  | _ => rfl

/-- Justified calls in atomic transactions that find unchanged what a change has found before keep
the law. -/
theorem keptBy_reauthentication : KeptBy D reauthentication AtomicAndFindsUnchanged := by
  intro i s q ω r u hinv hjust hallowed hserve
  refine ⟨?_, fun _ => credentials_of_atomic hallowed.1 hserve⟩
  cases effect_of_serve hserve with
  | untouched _ huntouched =>
    exact ⟨by simpa only [huntouched.journal] using hinv.same,
      by simpa only [huntouched.journal] using hinv.replaced⟩
  | foundCredential useCase hfound =>
    refine hinv.of_deed rfl (fun found hdeed found' hold => ?_) (by simp)
    cases hdeed
    have hunchanged := List.all_eq_true.mp hallowed.2 _ (mem_deedsOf.mpr hold)
    simpa [hfound] using hunchanged
  | saveCredential useCase credential =>
    refine hinv.of_deed rfl (by simp) fun before after hdeed => ?_
    cases hdeed
    obtain ⟨found, hmem, -, hstored⟩ := hjust
    exact ⟨found, hstored trivial, mem_deedsOf.mp hmem⟩
  | verify plaintext hash => exact hinv.of_deed rfl (by simp) (by simp)
  | foundResetToken _ => exact hinv.of_deed rfl (by simp) (by simp)
  | saveResetToken token => exact hinv.of_deed rfl (by simp) (by simp)

/-! ## Runs -/

/-- The owner changes the sample password, up to the end of the first transaction. -/
def changeReading (i : ℕ) (currentPassword newPassword : String) : CredentialSchedule :=
  .start i (.changePassword ⟨sampleOwner.id, currentPassword, newPassword⟩) ::
    List.replicate 6 (.answer i .served)

/-- The new hash is made, and replaces what the second transaction finds. -/
def changeWriting (i : ℕ) (newPassword : String) (now : ℤ) : CredentialSchedule :=
  [.answer i (.text ("m=19456$" ++ newPassword)), .answer i .served, .answer i .served,
    .answer i (.time now), .answer i .served, .answer i .served]

/-- A reset happens between the two transactions of a change. -/
def sampleOverwritten : CredentialPool :=
  (execWhile sampleAccountDeployment.step (fun P e => P.Allows Atomic e)
    (Pool.initial sampleAccount)
    (changeReading 1 "correct horse battery" "my own new password" ++
      resetReading 0 "a whole new password" 1767229200000 ++ resetWriting 0 1 1767229200000 ++
      changeWriting 1 "my own new password" 1767229260000)).get (by decide +kernel)

/-- With atomic transactions a change can replace a password that nobody has entered. -/
theorem unauthenticated_replaced :
    sampleAccountDeployment.hasher.VerifiesExactly ∧
      ∃ P, RunWhile sampleAccountDeployment.step (fun P e => P.Allows Atomic e)
        (Pool.initial sampleAccount) P ∧ ¬ ReplacesReauthenticated sampleAccountDeployment P := by
  refine ⟨sampleHasher_verifiesExactly, sampleOverwritten, runWhile_get _, fun hreplaces => ?_⟩
  obtain ⟨-, hreplaced⟩ := hreplaces 1
    ⟨sampleOwner.id, "correct horse battery", "my own new password"⟩ sampleOwner
    (by decide +kernel)
  obtain ⟨replaced, hbefore, hverify, -⟩ := hreplaced
    (some (sampleCredential.rotatePassword "m=19456$a whole new password" ⟨5⟩ 1767229200000))
    ((sampleCredential.rotatePassword "m=19456$a whole new password" ⟨5⟩
      1767229200000).rotatePassword "m=19456$my own new password" ⟨5⟩ 1767229260000)
    (by decide +kernel)
  cases hbefore
  exact absurd hverify (by decide +kernel)

/-- In runs with atomic transactions in which changes find their credentials unchanged, a change
replaces only what was re-authenticated. -/
theorem reauthenticated_replaced (hjournal : s.journal = []) {P : CredentialPool}
    (hrun : RunWhile D.step (fun P e => P.Allows AtomicAndFindsUnchanged e) (Pool.initial s) P) :
    ReplacesReauthenticated D P := by
  have hinitial : ChangesWhatItFinds s := ⟨by simp [hjournal], by simp [hjournal]⟩
  have hsound := soundCredentials_of_run keptBy_reauthentication
    (soundCredentials_initial (L := reauthentication) hjournal hinitial) hrun
  have hinv : ChangesWhatItFinds P.store := hsound.inv
  intro i command user hreturned
  obtain ⟨begun, hi⟩ := Pool.threads_of_returned hreturned
  have hdone : FitsChangeResult D reauthentication command (.ok (.ok ⟨user⟩))
    (P.store.deedsOf i) := hsound.done_of_ret hi
  obtain ⟨⟨found, hfound, -, hverify, hfresh⟩, -, before, after, -, hwrote, -⟩ := hdone user rfl
  refine ⟨⟨before, after, mem_deedsOf.mp hwrote⟩, fun before' after' hwrote' => ?_⟩
  obtain ⟨replaced, hbefore, hreplaced⟩ := hinv.replaced i before' after' hwrote'
  -- what was replaced has the hashes of what was found in the first transaction
  have hsame : replaced.knownHashes = found.knownHashes :=
    hinv.same i replaced found hreplaced (mem_deedsOf.mp hfound)
  refine ⟨replaced, hbefore, ?_, ?_⟩
  · rw [(List.cons.inj hsame).1]
    exact hverify
  · rw [Credential.IsReused, hsame]
    exact hfresh

/-- A change while nothing else happens. -/
def sampleChanged : CredentialPool :=
  (execWhile sampleAccountDeployment.step (fun P e => P.Allows AtomicAndFindsUnchanged e)
    (Pool.initial sampleAccount)
    (changeReading 1 "correct horse battery" "my own new password" ++
      changeWriting 1 "my own new password" 1767229260000)).get (by decide +kernel)

/-- The change has replaced the credential whose password was entered. -/
theorem reauthenticated_replaced_sample :
    ReplacesReauthenticated sampleAccountDeployment sampleChanged ∧
      sampleChanged.returned 1 =
        some ⟨.changePassword
          ⟨sampleOwner.id, "correct horse battery", "my own new password"⟩,
          .ok (.ok ⟨sampleOwner⟩)⟩ :=
  ⟨reauthenticated_replaced rfl (runWhile_get _), by decide +kernel⟩

end Verixa.Credentials
