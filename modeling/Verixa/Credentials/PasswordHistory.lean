import Verixa.Credentials.CredentialSafety
import Verixa.Credentials.ResetRejection

/-!
# The password history is the recent past

A credential keeps the hashes of earlier passwords.  Two use cases replace the hash by a rotation,
which pushes the old one to the history; a login may replace it by another hash of the same
password, which leaves the history alone.

Over any use cases, one after another, the history lists the passwords that were replaced, the most
recent first, up to its depth, and no password is set that is the current one or one of these
(`history_of_passwordRun`).
-/

namespace Verixa.Credentials

open Concurrency CredentialStore CredentialCalls

variable {D : CredentialDeployment} {start finish : ℤ} {i : ℕ} {s t u : CredentialStore}

/-! ## What an execution leaves of a credential -/

/-- A program of plain calls leaves the credentials and the tokens alone. -/
theorem untouched_of_quiet {α : Type} {property : α → Prop} {p : CredentialProgram α} {a : α}
    (hp : Quiet property p) (h : RunsWithin D start finish i p s a t) : Untouched s t := by
  induction hp generalizing s with
  | ret _ =>
    obtain ⟨-, rfl⟩ := runs_ret.mp h
    exact ⟨rfl, rfl, rfl⟩
  | call hq _ ih =>
    obtain ⟨r, u, ⟨ω, -, hserve⟩, hrest⟩ := runs_call.mp h
    have hsame := ih r hrest
    cases effect_of_serve hserve with
    | untouched _ hstep =>
      exact ⟨hsame.journal.trans hstep.journal,
        hsame.credentialsByUserId.trans hstep.credentialsByUserId,
        hsame.passwordResetTokensById.trans hstep.passwordResetTokensById⟩
    | _ => exact hq.elim

variable (D) in
/-- The hash is another one of the same password, if another at all; the history is the same. -/
structure Kept (before after : Credential) : Prop where
  passwordHistory : after.passwordHistory = before.passwordHistory
  passwordHash : after.passwordHash = before.passwordHash ∨
    ∃ password, D.hasher.verify password before.passwordHash = true ∧
      D.hasher.hashes password after.passwordHash = true

variable (D) in
/-- Every credential is still there, and was kept. -/
def KeepsPasswords (s t : CredentialStore) : Prop :=
  ∀ userId before, s.credentialsByUserId.get? userId = some before →
    ∃ after, t.credentialsByUserId.get? userId = some after ∧ Kept D before after

theorem keepsPasswords_of_eq (h : t.credentialsByUserId = s.credentialsByUserId) :
    KeepsPasswords D s t := by
  intro userId before hbefore
  exact ⟨before, by rw [h, hbefore], rfl, .inl rfl⟩

/-- Two upgrades of a hash are one, as a hash verifies one password. -/
theorem KeepsPasswords.trans (hexact : D.hasher.VerifiesExactly) (hst : KeepsPasswords D s t)
    (htu : KeepsPasswords D t u) : KeepsPasswords D s u := by
  intro userId before hbefore
  obtain ⟨middle, hmiddle, hkept⟩ := hst userId before hbefore
  obtain ⟨after, hafter, hkept'⟩ := htu userId middle hmiddle
  refine ⟨after, hafter, hkept'.passwordHistory.trans hkept.passwordHistory, ?_⟩
  rcases hkept.passwordHash with hsame | ⟨password, hverify, hhashes⟩
  · rw [← hsame]
    exact hkept'.passwordHash
  · rcases hkept'.passwordHash with hsame' | ⟨password', hverify', hhashes'⟩
    · exact .inr ⟨password, hverify, by rw [hsame']; exact hhashes⟩
    · obtain rfl := (hexact password middle.passwordHash hhashes password').mp hverify'
      exact .inr ⟨password', hverify, hhashes'⟩

/-- A credential that is saved in the place of one that it keeps. -/
theorem keepsPasswords_saveCredential {useCase : CredentialUseCase} {before after : Credential}
    (hstored : s.credentialsByUserId.get? after.userId = some before)
    (hkept : Kept D before after) :
    KeepsPasswords D s (s.saveCredential i useCase after) := by
  intro userId other hother
  by_cases huser : after.userId = userId
  · subst huser
    obtain rfl := Option.some.inj (hstored.symm.trans hother)
    exact ⟨after, KeyedMap.get?_put_self _ _, hkept⟩
  · refine ⟨other, ?_, rfl, .inl rfl⟩
    rw [← hother]
    exact KeyedMap.get?_put_of_ne _ huser

/-! ## Logging in -/

section Login

open AuthenticateWithPassword

variable {command : AuthenticateWithPasswordCommand} {user : User} {credential : Credential}
  {key : RateLimitKey} {now : ℤ}

/-- Saving a credential with the same hash and history. -/
theorem keepsPasswords_of_same {useCase : CredentialUseCase} {after : Credential}
    (hstored : s.credentialsByUserId.get? credential.userId = some credential)
    (huser : after.userId = credential.userId)
    (hhash : after.passwordHash = credential.passwordHash)
    (hhistory : after.passwordHistory = credential.passwordHistory) :
    KeepsPasswords D s (s.saveCredential i useCase after) :=
  keepsPasswords_saveCredential (by rw [huser]; exact hstored) ⟨hhistory, .inl hhash⟩

theorem passwordHistory_recordSuccessfulAttempt (credential : Credential) (now : ℤ) :
    (credential.recordSuccessfulAttempt now).passwordHistory = credential.passwordHistory := by
  unfold Credential.recordSuccessfulAttempt
  split <;> rfl

/-- What the check of a password does to the credentials; when it succeeds, the credential that
is returned is stored, and the password verified. -/
theorem keeps_of_runs_verifyCredential
    (hstored : s.credentialsByUserId.get? credential.userId = some credential)
    {outcome : Outcome}
    (h : RunsWithin D start finish i (verifyCredential D key command user credential now) s
      outcome t) :
    KeepsPasswords D s t ∧ ∀ user' credential', outcome = .ok user' credential' →
      t.credentialsByUserId.get? credential'.userId = some credential' ∧
        D.hasher.verify command.password credential'.passwordHash = true := by
  have hfailed : KeepsPasswords D s (s.saveCredential i .authenticateWithPassword
      (credential.recordFailedAttempt D.lockoutPolicy now)) :=
    keepsPasswords_of_same hstored rfl rfl rfl
  unfold verifyCredential at h
  split at h
  · obtain ⟨_, u, hburn, hrest⟩ := runs_bind.mp h
    obtain ⟨-, rfl⟩ := runs_burnTime.mp hburn
    obtain ⟨_, v, hsave, hret⟩ := runs_bind.mp hrest
    obtain ⟨-, rfl⟩ := runs_saveCredential.mp hsave
    obtain ⟨rfl, rfl⟩ := runs_ret.mp hret
    exact ⟨hfailed, fun _ _ houtcome => nomatch houtcome⟩
  · obtain ⟨isMatch, u, hverify, hrest⟩ := runs_bind.mp h
    obtain ⟨rfl, rfl⟩ := runs_verify.mp hverify
    cases hmatch : D.hasher.verify command.password credential.passwordHash with
    | false =>
      simp only [hmatch, Bool.not_false, if_true] at hrest
      obtain ⟨_, v, hsave, hrest⟩ := runs_bind.mp hrest
      obtain ⟨-, rfl⟩ := runs_saveCredential.mp hsave
      obtain ⟨_, w, hrecord, hret⟩ := runs_bind.mp hrest
      obtain ⟨-, rfl⟩ := runs_recordRateLimitFailure.mp hrecord
      obtain ⟨rfl, rfl⟩ := runs_ret.mp hret
      exact ⟨hfailed, fun _ _ houtcome => nomatch houtcome⟩
    | true =>
      simp only [hmatch, Bool.not_true, Bool.false_eq_true, if_false] at hrest
      split at hrest
      · obtain ⟨rfl, rfl⟩ := runs_ret.mp hrest
        exact ⟨keepsPasswords_of_eq rfl, fun _ _ houtcome => nomatch houtcome⟩
      split at hrest
      · obtain ⟨rfl, rfl⟩ := runs_ret.mp hrest
        refine ⟨keepsPasswords_of_eq rfl, fun user' credential' houtcome => ?_⟩
        cases houtcome
        exact ⟨hstored, hmatch⟩
      · obtain ⟨_, v, hsave, hret⟩ := runs_bind.mp hrest
        obtain ⟨-, rfl⟩ := runs_saveCredential.mp hsave
        obtain ⟨rfl, rfl⟩ := runs_ret.mp hret
        have hhash := credential.passwordHash_recordSuccessfulAttempt now
        have hkeeps : KeepsPasswords D s (s.saveCredential i .authenticateWithPassword
            (credential.recordSuccessfulAttempt now)) :=
          keepsPasswords_of_same hstored (credential.userId_recordSuccessfulAttempt now) hhash
            (passwordHistory_recordSuccessfulAttempt credential now)
        refine ⟨hkeeps, ?_⟩
        intro user' credential' houtcome
        cases houtcome
        exact ⟨KeyedMap.get?_put_self _ _, by rw [hhash]; exact hmatch⟩

/-- What a failed transaction does before it ends. -/
theorem eq_of_runs_fail {identifier candidate : String} {outcome : Outcome}
    (h : RunsWithin D start finish i (do
      countFailure D .login identifier
      burnTime candidate
      return Outcome.failed) s outcome t) :
    outcome = .failed ∧ t.credentialsByUserId = s.credentialsByUserId := by
  obtain ⟨_, u, hcount, hrest⟩ := runs_bind.mp h
  have hsame := untouched_of_quiet (quiet_countFailure D .login identifier) hcount
  obtain ⟨_, v, hburn, hret⟩ := runs_bind.mp hrest
  obtain ⟨-, rfl⟩ := runs_burnTime.mp hburn
  obtain ⟨rfl, rfl⟩ := runs_ret.mp hret
  exact ⟨rfl, hsame.credentialsByUserId⟩

/-- The transaction of a login. -/
theorem keeps_of_runs_transaction {email : Email} {outcome : Outcome}
    (h : RunsWithin D start finish i (transaction D key command email now) s outcome t) :
    KeepsPasswords D s t ∧ ∀ user' credential', outcome = .ok user' credential' →
      t.credentialsByUserId.get? credential'.userId = some credential' ∧
        D.hasher.verify command.password credential'.passwordHash = true := by
  obtain ⟨found, u, hfind, hrest⟩ := runs_bind.mp h
  obtain ⟨rfl, rfl⟩ := runs_findUserByEmail.mp hfind
  split at hrest
  · obtain ⟨rfl, hsame⟩ := eq_of_runs_fail hrest
    exact ⟨keepsPasswords_of_eq hsame, fun _ _ houtcome => nomatch houtcome⟩
  rename_i user huser
  obtain ⟨found, v, hfind, hrest⟩ := runs_bind.mp hrest
  obtain ⟨rfl, rfl⟩ := runs_findCredentialByUserId.mp hfind
  have hnoted := (sameRecords_noteFound u i (.foundCredential .authenticateWithPassword)
    (u.credentialsByUserId.get? user.id)).credentialsByUserId
  generalize u.noteFound i _ _ = v at hrest hnoted
  split at hrest
  · obtain ⟨rfl, hsame⟩ := eq_of_runs_fail hrest
    exact ⟨keepsPasswords_of_eq (hsame.trans hnoted), fun _ _ houtcome => nomatch houtcome⟩
  · rename_i credential hcredential
    have huserId : credential.userId = user.id := KeyedMap.key_of_get? hcredential
    obtain ⟨hkeeps, houtcome⟩ := keeps_of_runs_verifyCredential (by
      rw [hnoted, huserId]
      exact hcredential) hrest
    refine ⟨fun userId before hbefore => hkeeps userId before ?_, houtcome⟩
    rw [hnoted]
    exact hbefore

/-- The upgrade of a hash keeps the password that was verified. -/
theorem keeps_of_runs_upgradeHashIfStale {plaintext : String} {rehashed : Bool}
    (hstored : s.credentialsByUserId.get? credential.userId = some credential)
    (hverify : D.hasher.verify plaintext credential.passwordHash = true)
    (h : RunsWithin D start finish i (upgradeHashIfStale D credential plaintext) s rehashed t) :
    KeepsPasswords D s t := by
  unfold upgradeHashIfStale at h
  split at h
  · obtain ⟨answer, u, hhash, hrest⟩ := runs_bind.mp h
    have hsame := untouched_of_quiet (quiet_perform (q := .hash plaintext) trivial) hhash
    cases answer with
    | none =>
      obtain ⟨-, rfl⟩ := runs_ret.mp hrest
      exact keepsPasswords_of_eq hsame.credentialsByUserId
    | some newHash =>
      obtain ⟨hhashes, rfl⟩ := runs_hash_some.mp hhash
      obtain ⟨time, v, hnow, hupgrade⟩ := runs_bind.mp hrest
      obtain ⟨-, rfl⟩ := runs_now.mp hnow
      obtain ⟨_, w, hrun, hret⟩ := runs_bind.mp hupgrade
      obtain ⟨-, rfl⟩ := runs_ret.mp hret
      obtain ⟨x, hsave, rfl⟩ := runs_run.mp hrun
      obtain ⟨-, rfl⟩ := runs_saveCredential.mp hsave
      exact @keepsPasswords_saveCredential D i _ .authenticateWithPassword credential
        (credential.withPasswordHash newHash time) hstored
        ⟨rfl, .inr ⟨plaintext, hverify, hhashes⟩⟩
  · obtain ⟨-, rfl⟩ := runs_ret.mp h
    exact keepsPasswords_of_eq rfl

/-- A login keeps every password. -/
theorem keeps_of_runs_login (hexact : D.hasher.VerifiesExactly)
    {result : AuthenticateWithPasswordResult}
    (h : RunsWithin D start finish i (AuthenticateWithPassword.execute D command) s result t) :
    KeepsPasswords D s t := by
  obtain ⟨limit, u, hlimit, hrest⟩ := runs_bind.mp h
  obtain ⟨-, rfl⟩ := runs_checkRateLimit.mp hlimit
  split at hrest
  · obtain ⟨-, rfl⟩ := runs_ret.mp hrest
    exact keepsPasswords_of_eq rfl
  obtain ⟨admitted, v, hgate, hrest⟩ := runs_bind.mp hrest
  have hgate := (untouched_of_quiet (quiet_mayProceed D .login command.email)
    hgate).credentialsByUserId
  refine (keepsPasswords_of_eq hgate).trans hexact ?_
  have hrefused : ∀ {result}, RunsWithin D start finish i (do
      burnTime command.password
      return .ok (.error (.authentication {})) : CredentialProgram AuthenticateWithPasswordResult)
      v result t → KeepsPasswords D v t := by
    intro result h
    obtain ⟨_, w, hburn, hret⟩ := runs_bind.mp h
    obtain ⟨-, rfl⟩ := runs_burnTime.mp hburn
    obtain ⟨-, rfl⟩ := runs_ret.mp hret
    exact keepsPasswords_of_eq rfl
  split at hrest
  · exact hrefused hrest
  split at hrest
  · exact hrefused hrest
  obtain ⟨time, w, hnow, hwork⟩ := runs_bind.mp hrest
  obtain ⟨-, rfl⟩ := runs_now.mp hnow
  obtain ⟨outcome, x, hrun, hfinish⟩ := runs_bind.mp hwork
  obtain ⟨y, htransaction, rfl⟩ := runs_run.mp hrun
  obtain ⟨hkeeps, hstored⟩ := keeps_of_runs_transaction htransaction
  have hkeeps : KeepsPasswords D w
      { y with openTransactions := y.openTransactions.filter fun j => j ≠ i } := hkeeps
  refine hkeeps.trans hexact ?_
  cases outcome with
  | failed =>
    obtain ⟨-, rfl⟩ := runs_ret.mp hfinish
    exact keepsPasswords_of_eq rfl
  | locked =>
    obtain ⟨-, rfl⟩ := runs_ret.mp hfinish
    exact keepsPasswords_of_eq rfl
  | ok user credential =>
    obtain ⟨hcredential, hverify⟩ := hstored user credential rfl
    obtain ⟨_, a, hcount, hrest⟩ := runs_bind.mp hfinish
    have hcount := (untouched_of_quiet (quiet_countSuccess D .login command.email)
      hcount).credentialsByUserId
    obtain ⟨_, b, hreset, hrest⟩ := runs_bind.mp hrest
    have hreset := (untouched_of_quiet (quiet_perform (q := .resetRateLimit _) trivial)
      hreset).credentialsByUserId
    obtain ⟨rehashed, c, hupgrade, hrest⟩ := runs_bind.mp hrest
    have hupgrade := keeps_of_runs_upgradeHashIfStale (by
      rw [hreset, hcount]
      exact hcredential) hverify hupgrade
    obtain ⟨success, d, hconclude, hret⟩ := runs_bind.mp hrest
    have hconclude := (untouched_of_quiet (quiet_conclude D user rehashed)
      hconclude).credentialsByUserId
    obtain ⟨-, rfl⟩ := runs_ret.mp hret
    have hbefore : KeepsPasswords D
        { y with openTransactions := y.openTransactions.filter fun j => j ≠ i } b :=
      keepsPasswords_of_eq (hreset.trans hcount)
    exact (hbefore.trans hexact hupgrade).trans hexact (keepsPasswords_of_eq hconclude)

end Login

/-! ## Changing a password -/

variable (D) in
/-- The credential was rotated to a hash of a password that it did not know. -/
def RotatedTo (userId : String) (before : Credential) (newPassword : String) (t : CredentialStore) :
    Prop :=
  ∃ newHash now, D.hasher.hashes newPassword newHash = true ∧
    ¬before.IsReused D.hasher.verify newPassword ∧
    t.credentialsByUserId.get? userId =
      some (before.rotatePassword newHash D.passwordHistoryPolicy now)

/-- What a reset returns when it has set the password; it may fail to sign the sessions out. -/
def ResetCommitted (result : Except ValidationError ConfirmPasswordResetResult) : Prop :=
  result = .error revocationFailedError ∨ ∃ user, result = .ok ⟨user⟩

instance (result : Except ValidationError ConfirmPasswordResetResult) :
    Decidable (ResetCommitted result) :=
  match result with
  | .ok ⟨user⟩ => isTrue (.inr ⟨user, rfl⟩)
  | .error error => decidable_of_iff (error = revocationFailedError) (by simp [ResetCommitted])

variable (D) in
/-- The password that an execution from the store `s` has set for the user, if it has. -/
def passwordSet (userId : String) (s : CredentialStore) :
    (c : CredentialCommand) → c.Result → Option String
  | .changePassword command, .ok (.ok _) =>
    if command.userId = userId then some command.newPassword else none
  | .confirmPasswordReset command, .ok result =>
    if ResetCommitted result ∧ (s.findResetTokenByHash (hashToken D.sha256 command.token)).any
        (fun token => decide (token.userId = userId)) = true then some command.newPassword
    else none
  | _, _ => none

variable (D) in
/-- The execution set no password for the user and kept the credential, or rotated it to the
password that it set. -/
def KeptOrRotated (userId : String) (before : Credential) (newPassword : Option String)
    (t : CredentialStore) : Prop :=
  (newPassword = none ∧ ∃ after, t.credentialsByUserId.get? userId = some after ∧
    Kept D before after) ∨
  ∃ password, newPassword = some password ∧ RotatedTo D userId before password t

theorem KeptOrRotated.of_eq {userId : String} {before : Credential}
    (h : t.credentialsByUserId.get? userId = some before) :
    KeptOrRotated D userId before none t :=
  .inl ⟨rfl, before, h, rfl, .inl rfl⟩

section Change

open ChangePassword

variable {command : ChangePasswordCommand} {userId : String} {before : Credential}

/-- A user is found under the id. -/
theorem id_of_findUserById {id : String} {user : User} (h : s.findUserById id = some user) :
    user.id = id :=
  KeyedMap.key_of_get? (Option.filter_eq_some_iff.mp h).1

/-- The first transaction changes no record, and lets only a password pass that the credential does
not know. -/
theorem of_runs_reauthenticate {outcome : Outcome}
    (h : RunsWithin D start finish i (reauthenticate command) s outcome t) :
    t.credentialsByUserId = s.credentialsByUserId ∧ ∀ user, outcome = .ok user →
      user.id = command.userId ∧ ∃ credential,
        s.credentialsByUserId.get? command.userId = some credential ∧
          ¬credential.IsReused D.hasher.verify command.newPassword := by
  obtain ⟨found, u, hfind, huser⟩ := runs_bind.mp h
  obtain ⟨rfl, rfl⟩ := runs_findUserById.mp hfind
  split at huser
  · obtain ⟨rfl, rfl⟩ := runs_ret.mp huser
    exact ⟨rfl, fun _ houtcome => nomatch houtcome⟩
  rename_i user hfound
  have hid := id_of_findUserById hfound
  obtain ⟨stored, v, hfind', hcredential⟩ := runs_bind.mp huser
  obtain ⟨rfl, rfl⟩ := runs_findCredentialByUserId.mp hfind'
  have hnoted := (sameRecords_noteFound u i (.foundCredential .changePassword)
    (u.credentialsByUserId.get? user.id)).credentialsByUserId
  generalize u.noteFound i _ _ = v at hcredential hnoted
  split at hcredential
  · obtain ⟨rfl, rfl⟩ := runs_ret.mp hcredential
    exact ⟨hnoted, fun _ houtcome => nomatch houtcome⟩
  rename_i credential hstored
  obtain ⟨isMatch, w, hverify, hmatch⟩ := runs_bind.mp hcredential
  obtain ⟨rfl, rfl⟩ := runs_verify.mp hverify
  split at hmatch
  · obtain ⟨rfl, rfl⟩ := runs_ret.mp hmatch
    exact ⟨hnoted, fun _ houtcome => nomatch houtcome⟩
  obtain ⟨reused, x, hreused, hfresh⟩ := runs_bind.mp hmatch
  obtain ⟨hknown, hsame⟩ := of_runs_isPasswordReused hreused
  have hsame := hsame.credentialsByUserId.trans hnoted
  split at hfresh
  · obtain ⟨rfl, rfl⟩ := runs_ret.mp hfresh
    exact ⟨hsame, fun _ houtcome => nomatch houtcome⟩
  · rename_i hnot
    obtain ⟨rfl, rfl⟩ := runs_ret.mp hfresh
    refine ⟨hsame, fun user' houtcome => ?_⟩
    cases houtcome
    rw [← hid]
    exact ⟨rfl, credential, hstored, fun hreuse => hnot (hknown.mpr hreuse)⟩

/-- The second transaction rotates what it finds. -/
theorem of_runs_rotate {user : User} {newHash : String} {replaced : Bool}
    (h : RunsWithin D start finish i (rotate D user newHash) s replaced t) :
    replaced = false ∧ t.credentialsByUserId = s.credentialsByUserId ∨
      replaced = true ∧ ∃ credential now,
        s.credentialsByUserId.get? user.id = some credential ∧
          t.credentialsByUserId = s.credentialsByUserId.put
            (credential.rotatePassword newHash D.passwordHistoryPolicy now) := by
  obtain ⟨stored, v, hfind, hcredential⟩ := runs_bind.mp h
  obtain ⟨rfl, rfl⟩ := runs_findCredentialByUserId.mp hfind
  have hnoted := (sameRecords_noteFound s i (.foundCredential .changePassword)
    (s.credentialsByUserId.get? user.id)).credentialsByUserId
  generalize s.noteFound i _ _ = v at hcredential hnoted
  split at hcredential
  · obtain ⟨rfl, rfl⟩ := runs_ret.mp hcredential
    exact .inl ⟨rfl, hnoted⟩
  · rename_i credential hstored
    obtain ⟨now, w, hnow, hsave⟩ := runs_bind.mp hcredential
    obtain ⟨-, rfl⟩ := runs_now.mp hnow
    obtain ⟨_, x, hsaved, hret⟩ := runs_bind.mp hsave
    obtain ⟨-, rfl⟩ := runs_saveCredential.mp hsaved
    obtain ⟨rfl, rfl⟩ := runs_ret.mp hret
    refine .inr ⟨rfl, credential, now, hstored, ?_⟩
    rw [← hnoted]
    rfl

/-- A rotation of one credential keeps the others. -/
theorem get?_of_rotation {stored : Credential} {newHash : String} {now : ℤ}
    (hstored : stored.userId ≠ userId)
    (hput : t.credentialsByUserId = s.credentialsByUserId.put
      (stored.rotatePassword newHash D.passwordHistoryPolicy now)) :
    t.credentialsByUserId.get? userId = s.credentialsByUserId.get? userId := by
  rw [hput]
  exact KeyedMap.get?_put_of_ne _ hstored

/-- A rotation of the credential to a hash of a password that it did not know. -/
theorem rotatedTo_of_rotation {newHash newPassword : String} {now : ℤ}
    (hbefore : before.userId = userId) (hhashes : D.hasher.hashes newPassword newHash = true)
    (hfresh : ¬before.IsReused D.hasher.verify newPassword)
    (hput : t.credentialsByUserId = s.credentialsByUserId.put
      (before.rotatePassword newHash D.passwordHistoryPolicy now)) :
    RotatedTo D userId before newPassword t := by
  refine ⟨newHash, now, hhashes, hfresh, ?_⟩
  rw [hput, ← hbefore]
  exact KeyedMap.get?_put_self _ _

/-- A change of a password. -/
theorem keptOrRotated_of_runs_change {result : CredentialCommand.Result (.changePassword command)}
    (hbefore : s.credentialsByUserId.get? userId = some before)
    (h : RunsWithin D start finish i (execute D command) s result t) :
    KeptOrRotated D userId before (passwordSet D userId s (.changePassword command) result) t := by
  unfold execute at h
  split at h
  · obtain ⟨rfl, rfl⟩ := runs_ret.mp h
    exact .of_eq hbefore
  rename_i password hpassword
  obtain ⟨outcome, u, hrun, hrest⟩ := runs_bind.mp h
  obtain ⟨v, hwork, rfl⟩ := runs_run.mp hrun
  obtain ⟨hsame, hok⟩ := of_runs_reauthenticate hwork
  have hsame : v.credentialsByUserId = s.credentialsByUserId := hsame
  have hkept : v.credentialsByUserId.get? userId = some before := by rw [hsame]; exact hbefore
  cases outcome with
  | ok user =>
    obtain ⟨hid, credential, hcredential, hfresh⟩ := hok user rfl
    obtain ⟨answer, w, hhash, hafter⟩ := runs_bind.mp hrest
    have hhashed := (untouched_of_quiet (quiet_perform (q := .hash password.reveal) trivial)
      hhash).credentialsByUserId
    cases answer with
    | none =>
      obtain ⟨rfl, rfl⟩ := runs_ret.mp hafter
      exact .of_eq (by rw [hhashed]; exact hkept)
    | some newHash =>
      rw [RawPassword.reveal_of_create hpassword] at hhash
      obtain ⟨hhashes, -⟩ := runs_hash_some.mp hhash
      obtain ⟨replaced, x, hrotate, hret⟩ := runs_bind.mp hafter
      obtain ⟨y, hwork', rfl⟩ := runs_run.mp hrotate
      rcases of_runs_rotate hwork' with ⟨rfl, hsame'⟩ | ⟨rfl, stored, now, hstored, hput⟩
      · obtain ⟨rfl, rfl⟩ := runs_ret.mp hret
        refine .of_eq ?_
        change y.credentialsByUserId.get? userId = _
        rw [hsame']
        change w.credentialsByUserId.get? userId = _
        rw [hhashed]
        exact hkept
      · obtain ⟨rfl, rfl⟩ := runs_ret.mp hret
        have hfound : w.credentialsByUserId.get? command.userId = some credential := by
          rw [hhashed, ← hcredential, ← hsame]
        obtain rfl := Option.some.inj (hstored.symm.trans ((congrArg _ hid).trans hfound))
        have huserId : stored.userId = command.userId := KeyedMap.key_of_get? hcredential
        by_cases huser : command.userId = userId
        · subst huser
          obtain rfl := Option.some.inj (hbefore.symm.trans hcredential)
          exact .inr ⟨command.newPassword, if_pos rfl,
            rotatedTo_of_rotation huserId hhashes hfresh hput⟩
        · have hnone : passwordSet D userId s (.changePassword command) (.ok (.ok ⟨user⟩)) = none :=
            if_neg huser
          rw [hnone]
          refine .of_eq ((get?_of_rotation (huserId ▸ huser) hput).trans ?_)
          change w.credentialsByUserId.get? userId = _
          rw [hhashed]
          exact hkept
  | _ =>
    obtain ⟨rfl, rfl⟩ := runs_ret.mp hrest
    exact .of_eq hkept

end Change

/-! ## Resetting a password -/

section Reset

open ConfirmPasswordReset

variable {command : ConfirmPasswordResetCommand} {userId : String} {before : Credential}

/-- What the transaction has done to the credential of the user when it ends. -/
inductive ResetEnds (D : CredentialDeployment) (command : ConfirmPasswordResetCommand)
    (userId : String) (before : Credential) (s t : CredentialStore) : Outcome → Prop
  | refused {outcome : Outcome} (houtcome : ∀ user, outcome ≠ .ok user)
      (hkept : t.credentialsByUserId.get? userId = some before) :
      ResetEnds D command userId before s t outcome
  | elsewhere {user : User} {token : PasswordResetToken}
      (htoken : s.findResetTokenByHash (hashToken D.sha256 command.token) = some token)
      (hother : token.userId ≠ userId)
      (hkept : t.credentialsByUserId.get? userId = some before) :
      ResetEnds D command userId before s t (.ok user)
  | rotated {user : User} {token : PasswordResetToken}
      (htoken : s.findResetTokenByHash (hashToken D.sha256 command.token) = some token)
      (huser : token.userId = userId) (hrotated : RotatedTo D userId before command.newPassword t) :
      ResetEnds D command userId before s t (.ok user)

/-- Replacing the credential of a user, who may be another one. -/
theorem of_runs_replaceCredential {tokenHash newPassword newHash : String} {user : User}
    {outcome : Outcome} (hhashes : D.hasher.hashes newPassword newHash = true)
    (hbefore : s.credentialsByUserId.get? userId = some before)
    (h : RunsWithin D start finish i (replaceCredential D tokenHash newPassword newHash user) s
      outcome t) :
    outcome = .passwordReused ∧ t.credentialsByUserId.get? userId = some before ∨
      outcome = .ok user ∧ (user.id ≠ userId ∧ t.credentialsByUserId.get? userId = some before ∨
        user.id = userId ∧ RotatedTo D userId before newPassword t) := by
  obtain ⟨stored, u, hfind, hrest⟩ := runs_bind.mp h
  obtain ⟨rfl, rfl⟩ := runs_findCredentialByUserId.mp hfind
  have hnoted := (sameRecords_noteFound s i (.foundCredential (.confirmPasswordReset tokenHash))
    (s.credentialsByUserId.get? user.id)).credentialsByUserId
  generalize s.noteFound i _ _ = u at hrest hnoted
  have hkept : u.credentialsByUserId.get? userId = some before := by rw [hnoted]; exact hbefore
  split at hrest
  · rename_i hnone
    have hother : user.id ≠ userId := by
      rintro rfl
      exact nomatch hnone.symm.trans hbefore
    obtain ⟨id, v, hid, hclock⟩ := runs_bind.mp hrest
    have hid := (untouched_of_quiet (quiet_perform (q := .createId) trivial)
      hid).credentialsByUserId
    obtain ⟨now, w, hnow, hsave⟩ := runs_bind.mp hclock
    obtain ⟨-, rfl⟩ := runs_now.mp hnow
    obtain ⟨_, x, hsaved, hret⟩ := runs_bind.mp hsave
    obtain ⟨-, rfl⟩ := runs_saveCredential.mp hsaved
    obtain ⟨rfl, rfl⟩ := runs_ret.mp hret
    refine .inr ⟨rfl, .inl ⟨hother, ?_⟩⟩
    have hcreated : (Credential.create id user.id newHash now).userId ≠ userId := hother
    refine (KeyedMap.get?_put_of_ne w.credentialsByUserId hcreated).trans ?_
    rw [hid]
    exact hkept
  · rename_i existing hexisting
    have huserId : existing.userId = user.id := KeyedMap.key_of_get? hexisting
    obtain ⟨reused, v, hreused, hfresh⟩ := runs_bind.mp hrest
    obtain ⟨hknown, hsame⟩ := of_runs_isPasswordReused hreused
    have hkept : v.credentialsByUserId.get? userId = some before := by
      rw [hsame.credentialsByUserId]
      exact hkept
    split at hfresh
    · obtain ⟨rfl, rfl⟩ := runs_ret.mp hfresh
      exact .inl ⟨rfl, hkept⟩
    · rename_i hnot
      obtain ⟨now, w, hnow, hsave⟩ := runs_bind.mp hfresh
      obtain ⟨-, rfl⟩ := runs_now.mp hnow
      obtain ⟨_, x, hsaved, hret⟩ := runs_bind.mp hsave
      obtain ⟨-, rfl⟩ := runs_saveCredential.mp hsaved
      obtain ⟨rfl, rfl⟩ := runs_ret.mp hret
      refine .inr ⟨rfl, ?_⟩
      by_cases huser : user.id = userId
      · obtain rfl := Option.some.inj ((huser ▸ hexisting).symm.trans hbefore)
        refine .inr ⟨huser, @rotatedTo_of_rotation D w _ userId existing newHash newPassword now
          (huserId.trans huser) hhashes (fun hreuse => hnot (hknown.mpr hreuse)) rfl⟩
      · refine .inl ⟨huser, ?_⟩
        have hrotated : existing.userId ≠ userId := huserId ▸ huser
        exact (@get?_of_rotation D w _ userId existing newHash now hrotated rfl).trans hkept

/-- The transaction of a reset. -/
theorem resetEnds_of_runs {newHash : String} {now : ℤ} {outcome : Outcome}
    (hhashes : D.hasher.hashes command.newPassword newHash = true)
    (hbefore : s.credentialsByUserId.get? userId = some before)
    (h : RunsWithin D start finish i (transaction D command newHash now) s outcome t) :
    ResetEnds D command userId before s t outcome := by
  obtain ⟨found, u, hfind, hlink⟩ := runs_bind.mp h
  obtain ⟨rfl, rfl⟩ := runs_findResetTokenByHash.mp hfind
  have hnoted := (sameRecords_noteFound s i .foundResetToken
    (s.findResetTokenByHash (hashToken D.sha256 command.token))).credentialsByUserId
  generalize s.noteFound i .foundResetToken _ = u at hlink hnoted
  have hkept : u.credentialsByUserId.get? userId = some before := by rw [hnoted]; exact hbefore
  have hinvalid : ResetEnds D command userId before s u .invalid :=
    .refused (fun _ houtcome => nomatch houtcome) hkept
  split at hlink
  · obtain ⟨rfl, rfl⟩ := runs_ret.mp hlink
    exact hinvalid
  rename_i token htoken
  split at hlink
  · obtain ⟨rfl, rfl⟩ := runs_ret.mp hlink
    exact hinvalid
  split at hlink
  · obtain ⟨rfl, rfl⟩ := runs_ret.mp hlink
    exact hinvalid
  rename_i consumed hconsume
  obtain ⟨stored, v, hfindUser, huser⟩ := runs_bind.mp hlink
  obtain ⟨rfl, rfl⟩ := runs_findUserById.mp hfindUser
  split at huser
  · obtain ⟨rfl, rfl⟩ := runs_ret.mp huser
    exact hinvalid
  rename_i user hfound
  have hid := id_of_findUserById hfound
  obtain ⟨_, w, hsave, hreplace⟩ := runs_bind.mp huser
  obtain ⟨-, rfl⟩ := runs_saveResetToken.mp hsave
  have hsaved : (CredentialStore.saveResetToken _ i consumed).credentialsByUserId.get? userId =
      some before := hkept
  have hends := of_runs_replaceCredential hhashes hsaved hreplace
  rw [hid] at hends
  rcases hends with ⟨rfl, hsame⟩ | ⟨rfl, ⟨hother, hsame⟩ | ⟨hmine, hrotated⟩⟩
  · exact .refused (fun _ houtcome => nomatch houtcome) hsame
  · exact .elsewhere htoken hother hsame
  · exact .rotated htoken hmine hrotated

/-- What follows the transaction changes no credential, and says whether the password was set. -/
theorem of_runs_finishReset {key : RateLimitKey} {tokenHash : String} {outcome : Outcome}
    {result : Except ThrownError (Except ValidationError ConfirmPasswordResetResult)}
    (h : RunsWithin D start finish i (finishReset D key tokenHash outcome) s result t) :
    t.credentialsByUserId = s.credentialsByUserId ∧
      ∃ answer, result = .ok answer ∧ (ResetCommitted answer ↔ ∃ user, outcome = .ok user) := by
  have hrefused : ∀ {outcome : Outcome} {error : ValidationError},
      (∀ user, outcome ≠ .ok user) → error ≠ revocationFailedError →
        (ResetCommitted (.error error) ↔ ∃ user, outcome = .ok user) := by
    intro outcome error houtcome herror
    refine iff_of_false ?_ fun ⟨user, hok⟩ => houtcome user hok
    rintro (hfailed | ⟨user, hok⟩)
    · exact herror (Except.error.inj hfailed)
    · exact nomatch hok
  cases outcome with
  | invalid =>
    obtain ⟨_, u, hcount, hret⟩ := runs_bind.mp h
    have hcount := untouched_of_quiet (quiet_countFailure D .passwordReset tokenHash) hcount
    obtain ⟨rfl, rfl⟩ := runs_ret.mp hret
    exact ⟨hcount.credentialsByUserId, _, rfl,
      hrefused (fun _ houtcome => nomatch houtcome) (by decide)⟩
  | passwordReused =>
    obtain ⟨rfl, rfl⟩ := runs_ret.mp h
    refine ⟨rfl, _, rfl, hrefused (fun _ houtcome => nomatch houtcome) fun hsame => ?_⟩
    have hfields := congrArg ValidationError.fieldErrors hsame
    simp at hfields
  | ok user =>
    obtain ⟨_, u, hcount, hrest⟩ := runs_bind.mp h
    have hcount := (untouched_of_quiet (quiet_countSuccess D .passwordReset tokenHash)
      hcount).credentialsByUserId
    obtain ⟨revoked, v, hrevoke, hrevoked⟩ := runs_bind.mp hrest
    have hrevoke := (untouched_of_quiet (quiet_perform (q := .revokeAllForUser user.id) trivial)
      hrevoke).credentialsByUserId
    split at hrevoked
    · obtain ⟨rfl, rfl⟩ := runs_ret.mp hrevoked
      exact ⟨hrevoke.trans hcount, _, rfl, iff_of_true (.inl rfl) ⟨user, rfl⟩⟩
    · obtain ⟨_, w, hreset, hret⟩ := runs_bind.mp hrevoked
      have hreset := (untouched_of_quiet (quiet_perform (q := .resetRateLimit key) trivial)
        hreset).credentialsByUserId
      obtain ⟨rfl, rfl⟩ := runs_ret.mp hret
      exact ⟨hreset.trans (hrevoke.trans hcount), _, rfl,
        iff_of_true (.inr ⟨user, rfl⟩) ⟨user, rfl⟩⟩

/-- A reset of a password. -/
theorem keptOrRotated_of_runs_reset
    {result : CredentialCommand.Result (.confirmPasswordReset command)}
    (hbefore : s.credentialsByUserId.get? userId = some before)
    (h : RunsWithin D start finish i (execute D command) s result t) :
    KeptOrRotated D userId before (passwordSet D userId s (.confirmPasswordReset command) result)
      t := by
  -- an error that is not of the revocation sets no password
  have hrefused : ∀ {error : ValidationError} {t : CredentialStore},
      error.fieldErrors ≠ revocationFailedError.fieldErrors →
        t.credentialsByUserId.get? userId = some before →
          KeptOrRotated D userId before
            (passwordSet D userId s (.confirmPasswordReset command) (.ok (.error error))) t := by
    intro error t herror hkept
    have hnone : passwordSet D userId s (.confirmPasswordReset command) (.ok (.error error)) =
        none := by
      refine if_neg ?_
      rintro ⟨hfailed | ⟨user, hok⟩, -⟩
      · exact herror (congrArg ValidationError.fieldErrors (Except.error.inj hfailed))
      · exact nomatch hok
    rw [hnone]
    exact .of_eq hkept
  obtain ⟨limit, u, hlimit, hpolicy⟩ := runs_bind.mp h
  obtain ⟨rfl, rfl⟩ := runs_checkRateLimit.mp hlimit
  split at hpolicy
  · obtain ⟨rfl, rfl⟩ := runs_ret.mp hpolicy
    exact .of_eq hbefore
  split at hpolicy
  · rename_i error herror
    obtain ⟨rfl, rfl⟩ := runs_ret.mp hpolicy
    refine hrefused ?_ hbefore
    rcases RawPassword.fieldErrors_of_create herror with hfields | hfields
    · rw [hfields]
      decide
    · rw [hfields]
      decide
  rename_i password hpassword
  obtain ⟨now, v, hnow, hproceed⟩ := runs_bind.mp hpolicy
  obtain ⟨-, rfl⟩ := runs_now.mp hnow
  obtain ⟨proceeds, w, hgate, hhash⟩ := runs_bind.mp hproceed
  have hgate := untouched_of_quiet (quiet_mayProceed D .passwordReset _) hgate
  have hkept : w.credentialsByUserId.get? userId = some before := by
    rw [hgate.credentialsByUserId]
    exact hbefore
  split at hhash
  · obtain ⟨rfl, rfl⟩ := runs_ret.mp hhash
    exact hrefused (by decide) hkept
  obtain ⟨answer, x, hhashed, hrun⟩ := runs_bind.mp hhash
  have hsame := untouched_of_quiet (quiet_perform (q := .hash password.reveal) trivial) hhashed
  have hkept : x.credentialsByUserId.get? userId = some before := by
    rw [hsame.credentialsByUserId]
    exact hkept
  cases answer with
  | none =>
    obtain ⟨rfl, rfl⟩ := runs_ret.mp hrun
    exact .of_eq hkept
  | some newHash =>
    rw [RawPassword.reveal_of_create hpassword] at hhashed
    obtain ⟨hhashes, -⟩ := runs_hash_some.mp hhashed
    obtain ⟨outcome, y, htransaction, hfinish⟩ := runs_bind.mp hrun
    obtain ⟨z, hwork, rfl⟩ := runs_run.mp htransaction
    obtain ⟨hrecords, result, rfl, hcommitted⟩ := of_runs_finishReset hfinish
    have hopened : ({ x with openTransactions := i :: x.openTransactions } :
        CredentialStore).credentialsByUserId.get? userId = some before := hkept
    have hends := resetEnds_of_runs hhashes hopened hwork
    -- the link is the one that was there in the beginning
    have hlink : x.findResetTokenByHash (hashToken D.sha256 command.token) =
        v.findResetTokenByHash (hashToken D.sha256 command.token) := by
      rw [CredentialStore.findResetTokenByHash, hsame.passwordResetTokensById,
        hgate.passwordResetTokensById]
      rfl
    have hset : ∀ token, x.findResetTokenByHash (hashToken D.sha256 command.token) = some token →
        (∃ user, outcome = .ok user) →
          passwordSet D userId v (.confirmPasswordReset command) (.ok result) =
            if token.userId = userId then some command.newPassword else none := by
      intro token htoken hok
      rw [hlink] at htoken
      simp [passwordSet, hcommitted.mpr hok, htoken]
    have hstore : ∀ {t' : CredentialStore}, t'.credentialsByUserId = z.credentialsByUserId →
        t'.credentialsByUserId.get? userId = z.credentialsByUserId.get? userId :=
      fun hsame => by rw [hsame]
    cases hends with
    | refused houtcome hrefusedKept =>
      have hnone : passwordSet D userId v (.confirmPasswordReset command) (.ok result) = none :=
        if_neg fun hcondition => by
          obtain ⟨user, hok⟩ := hcommitted.mp hcondition.1
          exact houtcome user hok
      rw [hnone]
      exact .of_eq ((hstore hrecords).trans hrefusedKept)
    | elsewhere htoken hother helsewhere =>
      rw [hset _ htoken ⟨_, rfl⟩, if_neg hother]
      exact .of_eq ((hstore hrecords).trans helsewhere)
    | rotated htoken huser hrotated =>
      obtain ⟨newHash', now', hhashes', hfresh, hstored⟩ := hrotated
      rw [hset _ htoken ⟨_, rfl⟩, if_pos huser]
      exact .inr ⟨_, rfl, newHash', now', hhashes', hfresh, (hstore hrecords).trans hstored⟩

end Reset

/-! ## Any use case -/

section Executions

variable {userId : String} {before : Credential}

/-- What any of the use cases does to the credential of the user. -/
theorem keptOrRotated_of_runs (hexact : D.hasher.VerifiesExactly) {c : CredentialCommand}
    {result : c.Result} (hbefore : s.credentialsByUserId.get? userId = some before)
    (h : RunsWithin D start finish i (D.body c) s result t) :
    KeptOrRotated D userId before (passwordSet D userId s c result) t := by
  cases c with
  | authenticateWithPassword command =>
    exact .inl ⟨rfl, keeps_of_runs_login hexact h userId before hbefore⟩
  | confirmPasswordReset command => exact keptOrRotated_of_runs_reset hbefore h
  | changePassword command => exact keptOrRotated_of_runs_change hbefore h

/-- Whatever the clock shows during a run, it shows between two moments. -/
theorem exists_moments_of_runs {γ : Type} {p : CredentialProgram γ} {a : γ}
    (h : Runs D.serve (fun _ _ _ _ => True) i p s a t) :
    ∃ start finish, RunsWithin D start finish i p s a t := by
  induction h with
  | ret a s => exact ⟨0, 0, .ret a s⟩
  | call hanswers _ ih =>
    obtain ⟨ω, -, hserve⟩ := hanswers
    obtain ⟨start, finish, hrest⟩ := ih
    have hwider : ∀ {start' finish'}, start' ≤ start → finish ≤ finish' →
        RunsWithin D start' finish' i _ _ _ _ := fun hstart hfinish =>
      hrest.imp fun _ _ _ hclock time htime =>
        ⟨hstart.trans (hclock time htime).1, (hclock time htime).2.trans hfinish⟩
    cases ω with
    | time now =>
      refine ⟨min start now, max finish now, .call ⟨.time now, ?_, hserve⟩
        (hwider (min_le_left _ _) (le_max_left _ _))⟩
      intro time htime
      cases htime
      exact ⟨min_le_right _ _, le_max_right _ _⟩
    | _ =>
      refine ⟨start, finish, .call ⟨_, ?_, hserve⟩ hrest⟩
      intro time htime
      cases htime

end Executions

/-! ## Runs on one account -/

variable (D) in
/-- The hash verifies this password and no other. -/
def IsHashOf (password hash : String) : Prop :=
  ∀ candidate, D.hasher.verify candidate hash = true ↔ candidate = password

variable (D) in
/-- The store is reached from one in which the account of the user is new by use cases that are
executed one after another.  The list has the passwords that the account has had, the current one
first. -/
inductive PasswordRun (userId : String) : List String → CredentialStore → Prop
  | created {s : CredentialStore} {credential : Credential} {password : String}
      (hstored : s.credentialsByUserId.get? userId = some credential)
      (hhash : IsHashOf D password credential.passwordHash)
      (hhistory : credential.passwordHistory = []) : PasswordRun userId [password] s
  | executed {passwords : List String} {s t : CredentialStore} {i : ℕ} {c : CredentialCommand}
      {result : c.Result} (hrun : PasswordRun userId passwords s)
      (hexecuted : Runs D.serve (fun _ _ _ _ => True) i (D.body c) s result t) :
      PasswordRun userId ((passwordSet D userId s c result).toList ++ passwords) t
  | others {passwords : List String} {s t : CredentialStore} (hrun : PasswordRun userId passwords s)
      (hsame : t.credentialsByUserId.get? userId = s.credentialsByUserId.get? userId) :
      PasswordRun userId passwords t

variable (D) in
/-- The credential of the user has a hash of the first password, and the history has hashes of those
after it, up to its depth. -/
structure Remembers (userId : String) (passwords : List String) (s : CredentialStore)
    (credential : Credential) : Prop where
  stored : s.credentialsByUserId.get? userId = some credential
  known : List.Forall₂ (IsHashOf D) (passwords.take (D.passwordHistoryPolicy.depth + 1))
    credential.knownHashes

section Account

variable {userId : String} {passwords : List String} {credential : Credential}

/-- Hashing gives a hash of the password. -/
theorem isHashOf_of_hashes (hexact : D.hasher.VerifiesExactly) {password hash : String}
    (h : D.hasher.hashes password hash = true) : IsHashOf D password hash :=
  hexact password hash h

/-- A member of the one list has a partner in the other. -/
theorem exists_mem_of_forall₂ {α β : Type} {R : α → β → Prop} {l : List α} {l' : List β}
    (h : List.Forall₂ R l l') {a : α} (ha : a ∈ l) : ∃ b ∈ l', R a b := by
  induction h with
  | nil => exact absurd ha List.not_mem_nil
  | cons hhead _ ih =>
    rcases List.mem_cons.mp ha with rfl | hmem
    · exact ⟨_, List.mem_cons_self, hhead⟩
    · obtain ⟨b, hb, hR⟩ := ih hmem
      exact ⟨b, List.mem_cons_of_mem _ hb, hR⟩

/-- A credential that is kept remembers the same passwords. -/
theorem Remembers.of_kept (hexact : D.hasher.VerifiesExactly) {after : Credential}
    (h : Remembers D userId passwords s credential)
    (hstored : t.credentialsByUserId.get? userId = some after) (hkept : Kept D credential after) :
    Remembers D userId passwords t after := by
  refine ⟨hstored, ?_⟩
  have hknown := h.known
  rw [Credential.knownHashes] at hknown ⊢
  rw [hkept.passwordHistory]
  cases hlist : passwords.take (D.passwordHistoryPolicy.depth + 1) with
  | nil =>
    rw [hlist] at hknown
    cases hknown
  | cons password earlier =>
    rw [hlist] at hknown
    cases hknown with
    | cons hcurrent hearlier =>
      refine .cons ?_ hearlier
      rcases hkept.passwordHash with hsame | ⟨verified, hverify, hhashes⟩
      · rw [hsame]
        exact hcurrent
      · -- the password that the new hash was made from is the one that the old one verified
        obtain rfl := (hcurrent verified).mp hverify
        exact isHashOf_of_hashes hexact hhashes

/-- A rotation puts a new password before the others. -/
theorem Remembers.of_rotated (hexact : D.hasher.VerifiesExactly) {newPassword : String}
    (h : Remembers D userId passwords s credential)
    (hrotated : RotatedTo D userId credential newPassword t) :
    ∃ after, Remembers D userId (newPassword :: passwords) t after := by
  obtain ⟨newHash, now, hhashes, -, hstored⟩ := hrotated
  refine ⟨_, hstored, ?_⟩
  have hearlier := List.forall₂_take D.passwordHistoryPolicy.depth h.known
  rw [List.take_take, Nat.min_eq_left (Nat.le_succ _)] at hearlier
  rw [List.take_succ_cons]
  exact .cons (isHashOf_of_hashes hexact hhashes) hearlier

/-- A password that a credential does not know is none of those that it remembers. -/
theorem Remembers.not_mem_of_rotated {newPassword : String}
    (h : Remembers D userId passwords s credential)
    (hrotated : RotatedTo D userId credential newPassword t) :
    newPassword ∉ passwords.take (D.passwordHistoryPolicy.depth + 1) := by
  obtain ⟨newHash, now, -, hfresh, -⟩ := hrotated
  intro hmem
  obtain ⟨hash, hknown, hhash⟩ := exists_mem_of_forall₂ h.known hmem
  exact hfresh ⟨hash, hknown, (hhash newPassword).mpr rfl⟩

/-- In every run on one account, the credential remembers the passwords that were set. -/
theorem exists_remembers_of_passwordRun (hexact : D.hasher.VerifiesExactly)
    (h : PasswordRun D userId passwords s) :
    ∃ credential, Remembers D userId passwords s credential := by
  induction h with
  | @created s credential password hstored hhash hhistory =>
    refine ⟨credential, hstored, ?_⟩
    rw [Credential.knownHashes, hhistory, List.take_succ_cons, List.take_nil]
    exact .cons hhash .nil
  | @executed passwords s t i c result _ hexecuted ih =>
    obtain ⟨credential, hremembers⟩ := ih
    obtain ⟨start, finish, hwithin⟩ := exists_moments_of_runs hexecuted
    rcases keptOrRotated_of_runs hexact hremembers.stored hwithin with
      ⟨hnone, after, hstored, hkept⟩ | ⟨password, hset, hrotated⟩
    · rw [hnone]
      exact ⟨after, hremembers.of_kept hexact hstored hkept⟩
    · rw [hset]
      exact hremembers.of_rotated hexact hrotated
  | others _ hsame ih =>
    obtain ⟨credential, hremembers⟩ := ih
    exact ⟨credential, hsame.trans hremembers.stored, hremembers.known⟩

/-- If the hasher verifies exactly, then in every run on one account the history has hashes of the
passwords that were replaced, the most recent first, as many as its depth allows, and no use case
sets a password that is the current one or one of these. -/
theorem history_of_passwordRun (hexact : D.hasher.VerifiesExactly)
    (h : PasswordRun D userId passwords s) :
    (∃ credential password earlier, s.credentialsByUserId.get? userId = some credential ∧
      passwords = password :: earlier ∧ IsHashOf D password credential.passwordHash ∧
      List.Forall₂ (IsHashOf D) (earlier.take D.passwordHistoryPolicy.depth)
        credential.passwordHistory) ∧
    ∀ (i : ℕ) (c : CredentialCommand) (result : c.Result) (t : CredentialStore)
      (newPassword : String), Runs D.serve (fun _ _ _ _ => True) i (D.body c) s result t →
        passwordSet D userId s c result = some newPassword →
          newPassword ∉ passwords.take (D.passwordHistoryPolicy.depth + 1) := by
  obtain ⟨credential, hremembers⟩ := exists_remembers_of_passwordRun hexact h
  constructor
  · have hknown := hremembers.known
    cases passwords with
    | nil =>
      rw [List.take_nil, Credential.knownHashes] at hknown
      cases hknown
    | cons password earlier =>
      rw [List.take_succ_cons, Credential.knownHashes] at hknown
      obtain ⟨hcurrent, hearlier⟩ := List.forall₂_cons.mp hknown
      exact ⟨credential, password, earlier, hremembers.stored, rfl, hcurrent, hearlier⟩
  · intro i c result t newPassword hruns hset
    obtain ⟨start, finish, hwithin⟩ := exists_moments_of_runs hruns
    rcases keptOrRotated_of_runs hexact hremembers.stored hwithin with
      ⟨hnone, -⟩ | ⟨password, hset', hrotated⟩
    · cases hnone.symm.trans hset
    · obtain rfl := Option.some.inj (hset'.symm.trans hset)
      exact hremembers.not_mem_of_rotated hrotated

end Account

/-- The change of the sample password. -/
def samplePasswordChange : CredentialCommand :=
  .changePassword ⟨sampleOwner.id, "correct horse battery", "my own new password"⟩

/-- What the outside adds to the calls of that change. -/
def samplePasswordChangeInputs : List CredentialInput :=
  List.replicate 6 .served ++ [.text "m=19456$my own new password", .served, .served,
    .time 1767229200000, .served, .served]

/-- The sample change can be executed. -/
theorem isSome_samplePasswordChange :
    ((sampleAccountDeployment.body samplePasswordChange).runAlone sampleAccountDeployment.serve 0
      sampleAccount samplePasswordChangeInputs).isSome = true := by
  decide +kernel

/-- The owner of the sample account has changed the password. -/
def samplePasswordChanged : samplePasswordChange.Result × CredentialStore :=
  ((sampleAccountDeployment.body samplePasswordChange).runAlone sampleAccountDeployment.serve 0
    sampleAccount samplePasswordChangeInputs).get isSome_samplePasswordChange

/-- The stale hash of the sample account verifies its password and no other. -/
theorem isHashOf_sampleCredential : IsHashOf sampleAccountDeployment "correct horse battery"
    sampleCredential.passwordHash := by
  intro candidate
  have hfresh : "m=4096$correct horse battery" ≠ "m=19456$" ++ candidate := by
    intro h
    have hlists := congrArg String.toList h
    simp at hlists
  have hsame : "m=4096$correct horse battery" = "m=4096$" ++ "correct horse battery" := rfl
  have hstale : "m=4096$correct horse battery" = "m=4096$" ++ candidate ↔
      candidate = "correct horse battery" := by
    rw [hsame, String.append_right_inj, eq_comm]
  simpa [sampleAccountDeployment, sampleHasher, sampleCredential, Credential.create, hfresh]
    using hstale

/-- The password that was changed is remembered, and cannot be set again. -/
theorem history_of_passwordRun_sample :
    PasswordRun sampleAccountDeployment sampleOwner.id
        ["my own new password", "correct horse battery"] samplePasswordChanged.2 ∧
      ∀ (i : ℕ) (c : CredentialCommand) (result : c.Result) (t : CredentialStore)
        (newPassword : String), Runs sampleAccountDeployment.serve (fun _ _ _ _ => True) i
          (sampleAccountDeployment.body c) samplePasswordChanged.2 result t →
            passwordSet sampleAccountDeployment sampleOwner.id samplePasswordChanged.2 c result =
              some newPassword →
                newPassword ∉ ["my own new password", "correct horse battery"] := by
  have hcreated : PasswordRun sampleAccountDeployment sampleOwner.id ["correct horse battery"]
      sampleAccount :=
    .created (by decide +kernel) isHashOf_sampleCredential rfl
  have hruns : Runs sampleAccountDeployment.serve (fun _ _ _ _ => True) 0
      (sampleAccountDeployment.body samplePasswordChange) sampleAccount samplePasswordChanged.1
      samplePasswordChanged.2 :=
    runs_of_runAlone (Option.some_get isSome_samplePasswordChange).symm
  have hset : passwordSet sampleAccountDeployment sampleOwner.id sampleAccount samplePasswordChange
      samplePasswordChanged.1 = some "my own new password" := by decide +kernel
  have hchanged := hcreated.executed hruns
  rw [hset] at hchanged
  exact ⟨hchanged, (history_of_passwordRun sampleHasher_verifiesExactly hchanged).2⟩

end Verixa.Credentials
