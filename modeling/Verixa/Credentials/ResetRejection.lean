import Verixa.Credentials.SoloCalls

/-!
# What a rejected new password costs

A reset may refuse the new password: because its length breaks the policy, or because it was used
before.  The first is found before anything is looked up, and changes nothing.  The second is
found only after the link has been saved as consumed, in a transaction that is committed.  So a
rejection changes nothing exactly when the new password is not one that a usable link would lead
to a credential that knows it.
-/

namespace Verixa.Credentials

open Concurrency CredentialStore CredentialCalls

/-! ## Rejections -/

/-- The error is about the new password. -/
def AboutPassword (error : ValidationError) : Prop := error.errorsOf "password" ≠ []

theorem aboutPassword_passwordReusedError (policy : PasswordHistoryPolicy) :
    AboutPassword (passwordReusedError policy) := by
  have hfields : (passwordReusedError policy).fieldErrors = [("password", ["reused"])] := rfl
  rw [AboutPassword, ValidationError.errorsOf, hfields]
  decide

variable (D : CredentialDeployment) (start finish : ℤ) (i : ℕ) (s : CredentialStore)
  (command : ConfirmPasswordResetCommand)

/-- Whatever the reset finds wrong with the new password, it leaves all records as they were. -/
def RejectionChangesNothing : Prop :=
  ∀ error t, RunsWithin D start finish i (ConfirmPasswordReset.execute D command) s
    (.ok (.error error)) t → AboutPassword error → SameRecords s t

/-- The link can be used at the moment `now`, and the credential of its user knows the new
password. -/
def LinkKnowsPassword (now : ℤ) : Prop :=
  ∃ token user credential,
    s.findResetTokenByHash (hashToken D.sha256 command.token) = some token ∧
    token.isConsumed = false ∧ token.isExpiredAt now = false ∧
    s.findUserById token.userId = some user ∧
    s.credentialsByUserId.get? user.id = some credential ∧
    credential.IsReused D.hasher.verify command.newPassword

/-- The reset gets as far as the known hashes, and one of them verifies the new password. -/
structure ReusesPassword : Prop where
  admitted : (D.rateLimiter.check { action := .passwordReset, identifier := command.token }
    (s.rateLimiterCalls { action := .passwordReset, identifier := command.token })).allowed = true
  accepted : ∃ password, RawPassword.create D.passwordPolicy command.newPassword = .ok password
  opened : gateOpens D s .passwordReset (hashToken D.sha256 command.token) finish = true
  hashed : ∃ hash, D.hasher.hashes command.newPassword hash = true
  known : LinkKnowsPassword D s command start

variable {D start finish i s command} {t : CredentialStore}

/-- A link that can be used can be used earlier, and only users, credentials and reset tokens
matter. -/
theorem LinkKnowsPassword.of_eq {now : ℤ} (h : LinkKnowsPassword D s command now)
    (hle : start ≤ now) (husers : t.usersById = s.usersById)
    (hcredentials : t.credentialsByUserId = s.credentialsByUserId)
    (htokens : t.passwordResetTokensById = s.passwordResetTokensById) :
    LinkKnowsPassword D t command start := by
  obtain ⟨token, user, credential, htoken, hconsumed, hexpired, huser, hcredential, hknown⟩ := h
  refine ⟨token, user, credential, ?_, hconsumed, ?_, ?_, ?_, hknown⟩
  · rw [← htoken, CredentialStore.findResetTokenByHash, htokens]
    rfl
  · have hnow : now < token.expiresAt := by simpa [PasswordResetToken.isExpiredAt] using hexpired
    simpa [PasswordResetToken.isExpiredAt] using lt_of_le_of_lt hle hnow
  · rw [← huser, CredentialStore.findUserById, husers]
    rfl
  · rw [hcredentials, hcredential]

/-! ## The known hashes -/

/-- Trying the known hashes says whether the password is reused, and changes no record. -/
theorem of_runs_isPasswordReused {candidate : String} {known : List String} {reused : Bool}
    (h : RunsWithin D start finish i (isPasswordReused candidate known) s reused t) :
    (reused = true ↔ ∃ hash ∈ known, D.hasher.verify candidate hash = true) ∧ SameRecords s t := by
  induction known generalizing s with
  | nil =>
    obtain ⟨rfl, rfl⟩ := runs_ret.mp h
    exact ⟨by simp, .refl t⟩
  | cons hash rest ih =>
    obtain ⟨isMatch, u, hverify, h⟩ := runs_bind.mp h
    obtain ⟨rfl, rfl⟩ := runs_verify.mp hverify
    split at h
    · rename_i hmatch
      obtain ⟨rfl, rfl⟩ := runs_ret.mp h
      exact ⟨by simp [hmatch], ⟨rfl, rfl, rfl, rfl, rfl⟩⟩
    · rename_i hmatch
      obtain ⟨hreused, hsame⟩ := ih h
      refine ⟨by simpa [hmatch] using hreused, ?_⟩
      exact ⟨hsame.usersById, hsame.credentialsByUserId, hsame.passwordResetTokensById,
        hsame.rateLimiterCalls, hsame.attemptRecords⟩

/-! ## The transaction -/

section Transaction

open ConfirmPasswordReset

variable {newHash : String} {now : ℤ}

/-- Only a link that leads to a credential that knows the password is refused for its reuse. -/
theorem linkKnowsPassword_of_runs
    (h : RunsWithin D start finish i (transaction D command newHash now) s .passwordReused t) :
    LinkKnowsPassword D s command now := by
  obtain ⟨found, u, hfind, h⟩ := runs_bind.mp h
  obtain ⟨rfl, rfl⟩ := runs_findResetTokenByHash.mp hfind
  have hsame := sameRecords_noteFound s i .foundResetToken
    (s.findResetTokenByHash (hashToken D.sha256 command.token))
  generalize s.noteFound i .foundResetToken _ = u at h hsame
  split at h
  · cases (runs_ret.mp h).1
  rename_i token htoken
  split at h
  · cases (runs_ret.mp h).1
  split at h
  · cases (runs_ret.mp h).1
  rename_i consumed hconsume
  obtain ⟨hconsumed, hexpired, -⟩ := PasswordResetToken.consume_eq_ok hconsume
  obtain ⟨found, v, hfind, h⟩ := runs_bind.mp h
  obtain ⟨rfl, rfl⟩ := runs_findUserById.mp hfind
  split at h
  · cases (runs_ret.mp h).1
  rename_i user huser
  obtain ⟨_, w, hsave, h⟩ := runs_bind.mp h
  obtain ⟨-, rfl⟩ := runs_saveResetToken.mp hsave
  obtain ⟨found, x, hfind, h⟩ := runs_bind.mp h
  obtain ⟨rfl, rfl⟩ := runs_findCredentialByUserId.mp hfind
  split at h
  · obtain ⟨id, y, -, h⟩ := runs_bind.mp h
    obtain ⟨now', z, -, h⟩ := runs_bind.mp h
    obtain ⟨_, z', -, h⟩ := runs_bind.mp h
    cases (runs_ret.mp h).1
  rename_i credential hcredential
  obtain ⟨reused, y, hreused, h⟩ := runs_bind.mp h
  split at h
  · rename_i hyes
    have hknown := (of_runs_isPasswordReused hreused).1.mp hyes
    refine ⟨token, user, credential, htoken, hconsumed, hexpired, ?_, ?_, hknown⟩
    · rw [← huser, hsame.findUserById]
    · rw [← hcredential, ← hsame.credentialsByUserId]
      rfl
  · obtain ⟨now', z, -, h⟩ := runs_bind.mp h
    obtain ⟨_, z', -, h⟩ := runs_bind.mp h
    cases (runs_ret.mp h).1

/-- A link that leads to a credential that knows the password is consumed, and refused. -/
theorem exists_runs_of_linkKnowsPassword (newHash : String) (hclock : start ≤ finish)
    (h : LinkKnowsPassword D s command now) :
    ∃ t, RunsWithin D start finish i (transaction D command newHash now) s .passwordReused t ∧
      t.passwordResetTokensById ≠ s.passwordResetTokensById := by
  obtain ⟨token, user, credential, htoken, hconsumed, hexpired, huser, hcredential, hknown⟩ := h
  obtain ⟨hhash, hstored⟩ := of_findResetTokenByHash htoken
  have hmatch := PasswordResetToken.matchesToken_of_tokenHash hhash
  let consumed : PasswordResetToken := { token with consumedAt := some now }
  have hconsume : token.consume now = .ok consumed := by
    simp [PasswordResetToken.consume, hconsumed, hexpired, consumed]
  let u := (s.noteFound i .foundResetToken (some token)).saveResetToken i consumed
  let v := u.noteFound i
    (.foundCredential (.confirmPasswordReset (hashToken D.sha256 command.token))) (some credential)
  obtain ⟨reused, t, hruns⟩ := exists_runsWithin (D := D) (i := i) hclock
    (isPasswordReused command.newPassword credential.knownHashes) v
  obtain ⟨hreused, hsame⟩ := of_runs_isPasswordReused hruns
  have hyes : reused = true := hreused.mpr hknown
  refine ⟨t, ?_, ?_⟩
  · refine runs_bind.mpr ⟨_, _, runs_findResetTokenByHash.mpr ⟨rfl, rfl⟩, ?_⟩
    simp only [htoken, hmatch, hconsume, Bool.not_true, Bool.false_eq_true, if_false]
    refine runs_bind.mpr ⟨_, _, runs_findUserById.mpr ⟨rfl, rfl⟩, ?_⟩
    rw [(sameRecords_noteFound s i _ _).findUserById, huser]
    refine runs_bind.mpr ⟨(), u, runs_saveResetToken.mpr ⟨rfl, rfl⟩, ?_⟩
    refine runs_bind.mpr ⟨some credential, v, runs_findCredentialByUserId.mpr ?_, ?_⟩
    · have hsame : u.credentialsByUserId.get? user.id = some credential := hcredential
      rw [hsame]
      exact ⟨rfl, rfl⟩
    · refine runs_bind.mpr ⟨reused, t, hruns, ?_⟩
      rw [hyes, if_pos rfl]
      exact runs_ret.mpr ⟨rfl, rfl⟩
  · intro heq
    have hput : t.passwordResetTokensById.get? token.id = some consumed := by
      rw [hsame.passwordResetTokensById]
      exact KeyedMap.get?_put_self s.passwordResetTokensById consumed
    rw [heq, hstored] at hput
    have hnone : token.consumedAt = some now :=
      congrArg PasswordResetToken.consumedAt (Option.some.inj hput)
    simp [PasswordResetToken.isConsumed, hnone] at hconsumed

end Transaction

/-! ## The whole reset -/

section Execute

open ConfirmPasswordReset

/-- What the reset returns after its transaction is about the new password only when this is
refused for its reuse. -/
theorem outcome_of_runs_finishReset {rateLimitKey : RateLimitKey} {tokenHash : String}
    {outcome : Outcome} {error : ValidationError}
    (h : RunsWithin D start finish i (finishReset D rateLimitKey tokenHash outcome) s
      (.ok (.error error)) t) (habout : AboutPassword error) : outcome = .passwordReused := by
  cases outcome with
  | invalid =>
    obtain ⟨_, u, -, h⟩ := runs_bind.mp h
    cases (runs_ret.mp h).1
    exact absurd rfl habout
  | passwordReused => rfl
  | ok user =>
    obtain ⟨_, u, -, h⟩ := runs_bind.mp h
    obtain ⟨revoked, v, -, h⟩ := runs_bind.mp h
    split at h
    · cases (runs_ret.mp h).1
      exact absurd rfl habout
    · obtain ⟨_, w, -, h⟩ := runs_bind.mp h
      cases (runs_ret.mp h).1

/-- An error about the new password was found before anything was done, or is that it is
reused. -/
theorem sameRecords_or_reusesPassword {error : ValidationError}
    (h : RunsWithin D start finish i (execute D command) s (.ok (.error error)) t)
    (habout : AboutPassword error) :
    SameRecords s t ∨ ReusesPassword D start finish s command := by
  obtain ⟨limit, u, hlimit, hpolicy⟩ := runs_bind.mp h
  obtain ⟨rfl, rfl⟩ := runs_checkRateLimit.mp hlimit
  split at hpolicy
  · cases (runs_ret.mp hpolicy).1
  rename_i hadmitted
  split at hpolicy
  · exact .inl ((runs_ret.mp hpolicy).2 ▸ .refl _)
  rename_i password hpassword
  obtain ⟨now, v, hnow, hproceed⟩ := runs_bind.mp hpolicy
  obtain ⟨⟨hstart, hfinish⟩, rfl⟩ := runs_now.mp hnow
  obtain ⟨proceeds, w, hgate, hhash⟩ := runs_bind.mp hproceed
  obtain ⟨now', ⟨-, hfinish'⟩, rfl, rfl⟩ := (runs_mayProceed (hstart.trans hfinish)).mp hgate
  split at hhash
  · cases (runs_ret.mp hhash).1
    exact absurd rfl habout
  rename_i hopened
  obtain ⟨hash, x, hhash, hrun⟩ := runs_bind.mp hhash
  split at hrun
  · cases (runs_ret.mp hrun).1
  rename_i newHash
  rw [RawPassword.reveal_of_create hpassword] at hhash
  obtain ⟨hhashes, rfl⟩ := runs_hash_some.mp hhash
  obtain ⟨outcome, y, hrun, hfinishReset⟩ := runs_bind.mp hrun
  obtain rfl := outcome_of_runs_finishReset hfinishReset habout
  obtain ⟨z, htransaction, -⟩ := runs_run.mp hrun
  have hknown := linkKnowsPassword_of_runs htransaction
  obtain ⟨records, hafter⟩ := afterGate_eq D v .passwordReset
    (hashToken D.sha256 command.token) now'
  right
  refine ⟨by simpa using hadmitted, ⟨password, hpassword⟩, ?_, ⟨newHash, hhashes⟩, ?_⟩
  · exact gateOpens_mono (by simpa using hopened) hfinish'
  · rw [hafter] at hknown
    exact hknown.of_eq hstart rfl rfl rfl

/-- A usable link that leads to a credential that knows the password is consumed by the refusal. -/
theorem exists_runs_of_reusesPassword (hclock : start ≤ finish)
    (h : ReusesPassword D start finish s command) :
    ∃ t, RunsWithin D start finish i (execute D command) s
        (.ok (.error (passwordReusedError D.passwordHistoryPolicy))) t ∧
      t.passwordResetTokensById ≠ s.passwordResetTokensById := by
  obtain ⟨hadmitted, ⟨password, hpassword⟩, hopened, ⟨newHash, hhashes⟩, hknown⟩ := h
  let tokenHash := hashToken D.sha256 command.token
  obtain ⟨records, hafter⟩ := afterGate_eq D s .passwordReset tokenHash finish
  let u : CredentialStore :=
    { s with attemptRecords := records, openTransactions := i :: s.openTransactions }
  have hknown_u : LinkKnowsPassword D u command start := hknown.of_eq le_rfl rfl rfl rfl
  obtain ⟨t, htransaction, hburnt⟩ := exists_runs_of_linkKnowsPassword (i := i) newHash
    hclock hknown_u
  refine ⟨{ t with openTransactions := t.openTransactions.filter fun j => j ≠ i }, ?_, hburnt⟩
  refine runs_bind.mpr ⟨_, s, runs_checkRateLimit.mpr ⟨rfl, rfl⟩, ?_⟩
  simp only [hadmitted, hpassword, Bool.not_true, Bool.false_eq_true, if_false]
  refine runs_bind.mpr ⟨start, s, runs_now.mpr ⟨⟨le_rfl, hclock⟩, rfl⟩, ?_⟩
  refine runs_bind.mpr ⟨_, _, (runs_mayProceed hclock).mpr
    ⟨finish, ⟨hclock, le_rfl⟩, rfl, rfl⟩, ?_⟩
  simp only [hopened, Bool.not_true, Bool.false_eq_true, if_false]
  rw [RawPassword.reveal_of_create hpassword]
  refine runs_bind.mpr ⟨some newHash, _, runs_hash_some.mpr ⟨hhashes, rfl⟩, ?_⟩
  refine runs_bind.mpr ⟨.passwordReused, _, runs_run.mpr ⟨t, ?_, rfl⟩, runs_ret.mpr ⟨rfl, rfl⟩⟩
  rw [hafter]
  exact htransaction

end Execute

/-! ## Rejections that change nothing -/

/-- The refusal of a known password changes the records. -/
theorem not_rejectionChangesNothing (hclock : start ≤ finish)
    (h : ReusesPassword D start finish s command) :
    ¬RejectionChangesNothing D start finish i s command := by
  intro hnothing
  obtain ⟨t, hruns, hburnt⟩ := exists_runs_of_reusesPassword (i := i) hclock h
  exact hburnt (hnothing _ t hruns (aboutPassword_passwordReusedError _)).passwordResetTokensById

/-- A reset that refuses the new password leaves all records as they were, whatever it finds wrong
with it, exactly when the password is not one that the credential behind a usable link knows. -/
theorem rejection_changes_nothing_iff (hclock : start ≤ finish) :
    RejectionChangesNothing D start finish i s command ↔
      ¬ReusesPassword D start finish s command := by
  constructor
  · intro hnothing hreuses
    exact not_rejectionChangesNothing hclock hreuses hnothing
  · intro hfresh error t hruns habout
    exact (sameRecords_or_reusesPassword hruns habout).resolve_right hfresh

/-- A password that is too short is rejected at no cost. -/
theorem rejection_changes_nothing_iff_sample :
    RejectionChangesNothing sampleAccountDeployment 1767229200000 1767229201000 0 sampleAccount
      ⟨sampleLink, "battery"⟩ := by
  refine (rejection_changes_nothing_iff (by decide)).mpr fun h => ?_
  obtain ⟨password, hpassword⟩ := h.accepted
  have hlong := password.longEnough
  rw [← RawPassword.reveal, RawPassword.reveal_of_create hpassword] at hlong
  revert hlong
  decide +kernel

/-- The link of the sample account leads to a credential that knows the password. -/
theorem reusesPassword_sample : ReusesPassword sampleAccountDeployment 1767229200000 1767229201000
    sampleAccount ⟨sampleLink, "correct horse battery"⟩ where
  admitted := rfl
  accepted := ⟨_, RawPassword.create_of_length (by decide +kernel) (by decide +kernel)⟩
  opened := rfl
  hashed := ⟨"m=19456$correct horse battery", by decide⟩
  known := ⟨sampleResetToken, sampleOwner, sampleCredential, by decide +kernel, rfl, by decide,
    by decide +kernel, by decide +kernel, by decide +kernel⟩

/-- The link of the sample account is spent on a password that the account already has. -/
theorem reused_password_burns_link :
    ¬RejectionChangesNothing sampleAccountDeployment 1767229200000 1767229201000 0 sampleAccount
      ⟨sampleLink, "correct horse battery"⟩ :=
  not_rejectionChangesNothing (by decide) reusesPassword_sample

end Verixa.Credentials
