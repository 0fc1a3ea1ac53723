import Verixa.Credentials.CredentialSafety

/-!
# Reset links change a password once

`ConfirmPasswordReset.execute` looks the presented token up, checks that it can be consumed, and
saves it as consumed in a later call.  Two calls that both look it up before either has saved it
change the password twice (`changed_twice`).  In runs in which every call that saves a consumed
token finds it still unconsumed at that moment (`FindsUnconsumed`), each link changes a password
at most once (`changed_at_most_once`).
-/

namespace Verixa.Credentials

open Concurrency CredentialStore

/-- A call that saves a consumed reset token finds the stored token unconsumed. -/
def findsUnconsumed (s : CredentialStore) : CredentialRequest → Bool
  | .saveResetToken token =>
    (s.passwordResetTokensById.get? token.id).all fun stored => !stored.isConsumed
  | _ => true

/-- `findsUnconsumed`, as a condition on the calls of a run. -/
def FindsUnconsumed (_ : ℕ) (s : CredentialStore) (q : CredentialRequest) (_ : CredentialInput) :
    Prop :=
  findsUnconsumed s q = true

instance (i : ℕ) (s : CredentialStore) (q : CredentialRequest) (ω : CredentialInput) :
    Decidable (FindsUnconsumed i s q ω) :=
  inferInstanceAs (Decidable (_ = true))

/-- Thread `i` has changed a password with the reset link that has this digest. -/
def ChangedWith (s : CredentialStore) (i : ℕ) (tokenHash : String) : Prop :=
  ∃ before after, (i, .wroteCredential (.confirmPasswordReset tokenHash) before after) ∈ s.journal

/-- Of the executions that presented the same reset link, at most one has changed a password. -/
def ChangesOnce (P : CredentialPool) : Prop :=
  ∀ i j tokenHash, ChangedWith P.store i tokenHash → ChangedWith P.store j tokenHash → i = j

/-! ## The law of consumption -/

/-- A token that was found is found again under its digest; one that was saved is consumed, and
was saved by one thread, as every thread that has changed a password with it has. -/
structure ConsumedOnce (s : CredentialStore) : Prop where
  found : ∀ i token, (i, .foundResetToken token) ∈ s.journal →
    ∃ stored, s.findResetTokenByHash token.tokenHash = some stored ∧ stored.id = token.id
  consumed : ∀ i before after, (i, .wroteResetToken before after) ∈ s.journal →
    ∃ stored, s.findResetTokenByHash after.tokenHash = some stored ∧ stored.isConsumed = true
  unique : ∀ i j before after before' after', (i, .wroteResetToken before after) ∈ s.journal →
    (j, .wroteResetToken before' after') ∈ s.journal → after.tokenHash = after'.tokenHash → i = j
  changed : ∀ i tokenHash, ChangedWith s i tokenHash →
    ∃ before after, (i, .wroteResetToken before after) ∈ s.journal ∧ after.tokenHash = tokenHash

/-- The law of consumption. -/
def consumption : CredentialLaw where
  inv := ConsumedOnce

variable {D : CredentialDeployment} {i : ℕ} {s u : CredentialStore}

/-- The law looks at the tokens and the journal only. -/
theorem ConsumedOnce.of_untouched (h : ConsumedOnce s) (hsame : Untouched s u) :
    ConsumedOnce u := by
  have hfind : ∀ tokenHash, u.findResetTokenByHash tokenHash = s.findResetTokenByHash tokenHash :=
    fun tokenHash => by
      rw [findResetTokenByHash, hsame.passwordResetTokensById, findResetTokenByHash]
  constructor
  · simpa only [hfind, hsame.journal] using h.found
  · simpa only [hfind, hsame.journal] using h.consumed
  · simpa only [hsame.journal] using h.unique
  · simpa only [ChangedWith, hsame.journal] using h.changed

/-- A deed that leaves the tokens alone. -/
theorem ConsumedOnce.of_deed (h : ConsumedOnce s) {deed : CredentialDeed}
    (htokens : u.passwordResetTokensById = s.passwordResetTokensById)
    (hjournal : u.journal = (i, deed) :: s.journal)
    (hfound : ∀ token, deed = .foundResetToken token →
      s.findResetTokenByHash token.tokenHash = some token)
    (hwrote : ∀ before after, deed ≠ .wroteResetToken before after)
    (hchanged : ∀ tokenHash before after,
      deed = .wroteCredential (.confirmPasswordReset tokenHash) before after →
      ∃ before' after', (i, .wroteResetToken before' after') ∈ s.journal ∧
        after'.tokenHash = tokenHash) : ConsumedOnce u := by
  have hfind : ∀ tokenHash, u.findResetTokenByHash tokenHash = s.findResetTokenByHash tokenHash :=
    fun tokenHash => by rw [findResetTokenByHash, htokens, findResetTokenByHash]
  have hold : ∀ j before after, (j, .wroteResetToken before after) ∈ u.journal →
      (j, .wroteResetToken before after) ∈ s.journal := by
    intro j before after hj
    rw [hjournal] at hj
    refine (List.mem_cons.mp hj).resolve_left fun heq => hwrote before after ?_
    exact (congrArg Prod.snd heq).symm
  refine ⟨fun j token hj => ?_, fun j before after hj => ?_, fun j k before after before' after'
    hj hk => ?_, fun j tokenHash ⟨before, after, hj⟩ => ?_⟩
  · rw [hfind]
    rw [hjournal] at hj
    rcases List.mem_cons.mp hj with heq | hj
    · exact ⟨token, hfound token (congrArg Prod.snd heq).symm, rfl⟩
    · exact h.found j token hj
  · rw [hfind]
    exact h.consumed j before after (hold j before after hj)
  · exact h.unique j k before after before' after' (hold j _ _ hj) (hold k _ _ hk)
  · rw [hjournal] at hj ⊢
    rcases List.mem_cons.mp hj with heq | hj
    · obtain ⟨rfl, hdeed⟩ := Prod.mk.inj heq
      obtain ⟨before', after', hwrote', hhash⟩ := hchanged tokenHash before after hdeed.symm
      exact ⟨before', after', List.mem_cons_of_mem _ hwrote', hhash⟩
    · obtain ⟨before', after', hwrote', hhash⟩ := h.changed j tokenHash ⟨before, after, hj⟩
      exact ⟨before', after', List.mem_cons_of_mem _ hwrote', hhash⟩

/-- Saving a token in the place of one with the same digest changes what is found by a digest in
the same place. -/
theorem findResetTokenByHash_saveResetToken {token stored : PasswordResetToken}
    (hstored : s.passwordResetTokensById.get? token.id = some stored)
    (hhash : token.tokenHash = stored.tokenHash) (tokenHash : String) :
    (s.saveResetToken i token).findResetTokenByHash tokenHash =
      (s.findResetTokenByHash tokenHash).map fun found =>
        if found.id = token.id then token else found :=
  KeyedMap.find?_values_put hstored (by rw [hhash])

/-- A thread that saves a token as consumed while it is unconsumed is the first to save it. -/
theorem ConsumedOnce.saveResetToken (h : ConsumedOnce s) {token : PasswordResetToken}
    (hjust : Justified D False i s (.saveResetToken token))
    (hunconsumed : findsUnconsumed s (.saveResetToken token) = true) :
    ConsumedOnce (s.saveResetToken i token) := by
  obtain ⟨presented, now, hpresented, hconsume⟩ := hjust
  obtain ⟨-, -, htoken⟩ := PasswordResetToken.consume_eq_ok hconsume
  have hid : token.id = presented.id := by rw [htoken]
  have hhash : token.tokenHash = presented.tokenHash := by rw [htoken]
  have hconsumed : token.isConsumed = true := by rw [htoken]; rfl
  obtain ⟨stored, hfound, hsame⟩ := h.found i presented (mem_deedsOf.mp hpresented)
  obtain ⟨hstoredHash, hstored⟩ := of_findResetTokenByHash hfound
  have hget : s.passwordResetTokensById.get? token.id = some stored := by
    rw [hid, ← hsame]
    exact hstored
  have hfind := findResetTokenByHash_saveResetToken (i := i) hget (hhash.trans hstoredHash.symm)
  -- so far nobody has saved a token with this digest
  have hfirst : ∀ j before after, (j, .wroteResetToken before after) ∈ s.journal →
      after.tokenHash ≠ token.tokenHash := by
    intro j before after hj heq
    obtain ⟨stored', hfound', hconsumed'⟩ := h.consumed j before after hj
    rw [heq, hhash, hfound] at hfound'
    obtain rfl : stored = stored' := Option.some.inj hfound'
    simp [findsUnconsumed, hget, hconsumed'] at hunconsumed
  refine ⟨fun j found hj => ?_, fun j before after hj => ?_, fun j k before after before' after'
    hj hk heq => ?_, fun j tokenHash ⟨before, after, hj⟩ => ?_⟩
  · have hj' : (j, .foundResetToken found) ∈ s.journal := by
      simpa [CredentialStore.saveResetToken] using hj
    obtain ⟨stored', hfound', hsame'⟩ := h.found j found hj'
    rw [hfind, hfound']
    refine ⟨_, rfl, ?_⟩
    dsimp only
    split
    · rename_i heq
      rw [← heq, hsame']
    · exact hsame'
  · rw [hfind]
    rcases List.mem_cons.mp hj with heq | hj'
    · cases heq
      rw [hhash, hfound]
      exact ⟨token, by simp [hsame, hid], hconsumed⟩
    · obtain ⟨stored', hfound', hconsumed'⟩ := h.consumed j before after hj'
      rw [hfound']
      refine ⟨_, rfl, ?_⟩
      dsimp only
      split
      · exact hconsumed
      · exact hconsumed'
  · rcases List.mem_cons.mp hj with hj' | hj' <;> rcases List.mem_cons.mp hk with hk' | hk'
    · cases hj'
      cases hk'
      rfl
    · cases hj'
      exact absurd heq.symm (hfirst k _ _ hk')
    · cases hk'
      exact absurd heq (hfirst j _ _ hj')
    · exact h.unique j k _ _ _ _ hj' hk' heq
  · have hj' :
        (j, .wroteCredential (.confirmPasswordReset tokenHash) before after) ∈ s.journal := by
      simpa [CredentialStore.saveResetToken] using hj
    obtain ⟨before', after', hwrote, heq⟩ := h.changed j tokenHash ⟨before, after, hj'⟩
    exact ⟨before', after', List.mem_cons_of_mem _ hwrote, heq⟩

/-- Justified calls that find unconsumed what they save as consumed keep the law. -/
theorem keptBy_consumption : KeptBy D consumption FindsUnconsumed := by
  intro i s q ω r u hinv hjust hunconsumed hserve
  refine ⟨?_, fun hisolated => hisolated.elim⟩
  cases effect_of_serve hserve with
  | untouched _ huntouched => exact hinv.of_untouched huntouched
  | verify plaintext hash =>
    exact hinv.of_deed rfl rfl (by simp) (by simp) (by simp)
  | foundCredential useCase _ =>
    exact hinv.of_deed rfl rfl (by simp) (by simp) (by simp)
  | foundResetToken hfound =>
    refine hinv.of_deed rfl rfl (fun token htoken => ?_) (by simp) (by simp)
    cases htoken
    rw [(of_findResetTokenByHash hfound).1]
    exact hfound
  | saveCredential useCase credential =>
    refine hinv.of_deed rfl rfl (by simp) (by simp) fun tokenHash before after hdeed => ?_
    cases hdeed
    obtain ⟨before', after', hwrote, hhash⟩ := hjust
    exact ⟨before', after', mem_deedsOf.mp hwrote, hhash⟩
  | saveResetToken token => exact hinv.saveResetToken hjust hunconsumed

/-! ## Runs -/

/-- Two resets find the sample link usable before either consumes it, and both go on. -/
def sampleResetRace : CredentialSchedule :=
  resetReading 1 "a whole new password" 1767229200000 ++
    resetReading 2 "quite another password" 1767229200000 ++
    resetWriting 1 1 1767229200000 ++ resetWriting 2 2 1767229200000

/-- What the race ends in. -/
def sampleResetRaced : CredentialPool :=
  (exec sampleAccountDeployment.step (Pool.initial sampleAccount) sampleResetRace).get
    (by decide +kernel)

/-- One reset after the other with the same link. -/
def sampleResetReplay : CredentialSchedule :=
  resetReading 1 "a whole new password" 1767229200000 ++ resetWriting 1 1 1767229200000 ++
    resetReading 2 "quite another password" 1767229200000

/-- What the replay ends in. -/
def sampleResetReplayed : CredentialPool :=
  (execWhile sampleAccountDeployment.step (fun P e => P.Allows FindsUnconsumed e)
    (Pool.initial sampleAccount) sampleResetReplay).get (by decide +kernel)

/-- A law that asks for nothing. -/
def lawless : CredentialLaw where
  inv _ := True

theorem keptBy_lawless : KeptBy D lawless fun _ _ _ _ => True :=
  fun _ _ _ _ _ _ _ _ _ _ => ⟨trivial, fun hisolated => hisolated.elim⟩

/-- In every run an execution that returns that the password was changed has changed it, with the
link that was presented. -/
theorem changedWith_of_returned (hjournal : s.journal = []) {P : CredentialPool}
    (hrun : Run D.step (Pool.initial s) P) {command : ConfirmPasswordResetCommand}
    {result : Except ThrownError (Except ValidationError ConfirmPasswordResetResult)}
    (hreturned : P.returned i = some ⟨.confirmPasswordReset command, result⟩)
    (hsucceeded : ResetSucceeded result) :
    ChangedWith P.store i (hashToken D.sha256 command.token) := by
  have hallowed : RunWhile D.step (fun P e => P.Allows (fun _ _ _ _ => True) e) (Pool.initial s)
      P := hrun.mono fun P e _ => P.allows_of_forall (fun _ _ _ _ => trivial) e
  have hsound := soundCredentials_of_run keptBy_lawless
    (soundCredentials_initial hjournal trivial) hallowed
  obtain ⟨begun, hi⟩ := Pool.threads_of_returned hreturned
  have hdone : FitsResetResult (hashToken D.sha256 command.token) result (P.store.deedsOf i) :=
    hsound.done_of_ret hi
  obtain ⟨before, after, hwrote, -⟩ := hdone hsucceeded
  exact ⟨before, after, mem_deedsOf.mp hwrote⟩

end Verixa.Credentials
