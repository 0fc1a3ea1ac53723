import Verixa.Credentials.CredentialWork

/-!
# The password use cases make justified calls

The walk through `AuthenticateWithPassword`, `ConfirmPasswordReset` and `ChangePassword`, done once
for every law: each of their calls is justified, and what they return says what they have done
(`Done`).
-/

namespace Verixa.Credentials

open Concurrency CredentialStore CredentialCalls

/-! ## Programs that note nothing -/

/-- The call neither looks up, compares nor saves anything that is noted. -/
def Plain : CredentialRequest → Prop
  | .verify _ _ | .findCredentialByUserId _ _ | .saveCredential _ _ | .findResetTokenByHash _
  | .saveResetToken _ => False
  | _ => True

/-- All calls of the program are plain, and what it returns has the property. -/
inductive Quiet {α : Type} (property : α → Prop) : CredentialProgram α → Prop
  | ret {a : α} (h : property a) : Quiet property (.ret a)
  | call {q : CredentialRequest} {k : q.Answer → CredentialProgram α} (hq : Plain q)
      (hk : ∀ r, Quiet property (k r)) : Quiet property (.call q k)

theorem Quiet.bind {α β : Type} {property : α → Prop} {property' : β → Prop}
    {p : CredentialProgram α} {f : α → CredentialProgram β} (hp : Quiet property p)
    (hf : ∀ a, property a → Quiet property' (f a)) : Quiet property' (p >>= f) := by
  induction hp with
  | ret h => exact hf _ h
  | call hq _ ih => exact .call hq ih

/-- Sequencing, when nothing is known of the first result. -/
theorem Quiet.seq {α β : Type} {property : β → Prop} {p : CredentialProgram α}
    {f : α → CredentialProgram β} (hp : Quiet (fun _ => True) p)
    (hf : ∀ a, Quiet property (f a)) : Quiet property (p >>= f) :=
  hp.bind fun a _ => hf a

theorem quiet_perform {q : CredentialRequest} (hq : Plain q) :
    Quiet (fun _ => True) (Program.perform q : CredentialProgram q.Answer) :=
  .call hq fun _ => .ret trivial

section BruteForce

variable (D : CredentialDeployment) (scope : RateLimitAction) (identifier : String)

theorem quiet_mayProceed : Quiet (fun _ => True) (mayProceed D scope identifier) := by
  unfold mayProceed
  split
  · exact .ret trivial
  · refine Quiet.seq ?_ fun gate => .ret trivial
    refine Quiet.seq (quiet_perform (q := .readAttempts _) trivial) fun record => ?_
    refine Quiet.seq ?_ fun remainingMs => ?_
    · cases record.lockedUntil with
      | none => exact .ret trivial
      | some time => exact .call trivial fun now => .ret trivial
    refine Quiet.seq ?_ fun _ => ?_
    · unfold BruteForcePolicy.clearElapsed
      split
      · exact quiet_perform (q := .clearAttempts _) trivial
      · exact .ret trivial
    refine Quiet.seq (quiet_perform (q := .checkAttemptLimit _) trivial) fun limit => ?_
    refine Quiet.seq ?_ fun seconds => .ret trivial
    unfold BruteForcePolicy.readLimiterSeconds
    split
    · exact .ret trivial
    · split
      · exact .ret trivial
      · exact .call trivial fun now => .ret trivial

theorem quiet_countFailure : Quiet (fun _ => True) (countFailure D scope identifier) := by
  unfold countFailure
  split
  · exact .ret trivial
  · refine Quiet.seq (quiet_perform (q := .readAttempts _) trivial) fun record => ?_
    refine Quiet.seq ?_ fun lockedUntil => quiet_perform (q := .recordAttempt _ _) trivial
    unfold BruteForcePolicy.readLockUntil
    split
    · exact .ret trivial
    · exact .call trivial fun now => .ret trivial

theorem quiet_countSuccess : Quiet (fun _ => True) (countSuccess D scope identifier) := by
  unfold countSuccess
  split
  · exact .ret trivial
  · exact quiet_perform (q := .clearAttempts _) trivial

theorem quiet_conclude (user : User) (rehashed : Bool) :
    Quiet (fun success => success.user = user)
      (AuthenticateWithPassword.conclude D user rehashed) := by
  unfold AuthenticateWithPassword.conclude
  split
  · refine Quiet.seq (quiet_perform (q := .resolvePolicy _) trivial)
      fun (policy : MfaEnforcementLevel) => ?_
    refine Quiet.seq (quiet_perform (q := .listActiveMethods _) trivial)
      fun (methods : List MfaMethodSummary) => ?_
    split
    · exact .ret rfl
    · split
      · exact .ret rfl
      · exact .ret rfl
  · exact .ret rfl

end BruteForce

variable {D : CredentialDeployment} {L : CredentialLaw}
  {allowed : ℕ → CredentialStore → CredentialRequest → CredentialInput → Prop} {i : ℕ}
  {s : CredentialStore} {deeds : List CredentialDeed} {α β : Type}

/-! ## What a program ends with -/

variable (i) in
/-- Thread `i` knows its deeds, and what it ends with fits them. -/
def Ends (fits : α → List CredentialDeed → Prop) (t : CredentialStore) (a : α) : Prop :=
  ∃ deeds, Knows i t deeds ∧ fits a deeds

theorem safe_pure {fits : α → List CredentialDeed → Prop} {a : α}
    (hknows : Knows i s deeds) (hfits : fits a deeds) :
    Safe L.contract D.serve allowed i (Ends i fits) (pure a : CredentialProgram α) s :=
  fun _ ht _ => ⟨deeds, hknows.of_rely ht, hfits⟩

/-- Sequencing. -/
theorem safe_bind {fits : α → List CredentialDeed → Prop} {post : CredentialStore → β → Prop}
    {p : CredentialProgram α} {f : α → CredentialProgram β}
    (h : Safe L.contract D.serve allowed i (Ends i fits) p s)
    (hf : ∀ t a deeds, Knows i t deeds → fits a deeds →
      Safe L.contract D.serve allowed i post (f a) t) :
    Safe L.contract D.serve allowed i post (p >>= f) s :=
  h.bind fun t a ⟨deeds, hknows, hfits⟩ => hf t a deeds hknows hfits

/-- A program of plain calls adds no deeds. -/
theorem safe_quiet (hkept : KeptBy D L allowed) {property : α → Prop} {p : CredentialProgram α}
    (hp : Quiet property p) (hknows : Knows i s deeds) :
    Safe L.contract D.serve allowed i
      (Ends i fun a after => after = deeds ∧ property a) p s := by
  induction hp generalizing s with
  | ret h => exact safe_pure hknows ⟨rfl, h⟩
  | @call q k hq _ ih =>
    refine safe_silent hkept q (fun r => ?_) (fun t => ?_) hknows fun t r hknows_t => ih r hknows_t
    · cases q <;> trivial
    · cases q <;> trivial

/-- A program of plain calls, and what follows it. -/
theorem safe_quiet_bind (hkept : KeptBy D L allowed) {property : α → Prop}
    {p : CredentialProgram α} (hp : Quiet property p) (hknows : Knows i s deeds)
    {post : CredentialStore → β → Prop} {f : α → CredentialProgram β}
    (hf : ∀ t a, Knows i t deeds → property a →
      Safe L.contract D.serve allowed i post (f a) t) :
    Safe L.contract D.serve allowed i post (p >>= f) s := by
  refine safe_bind (safe_quiet hkept hp hknows) fun t a after hknows_t ⟨hafter, hproperty⟩ => ?_
  rw [hafter] at hknows_t
  exact hf t a hknows_t hproperty

/-- A transaction. -/
theorem safe_run (hkept : KeptBy D L allowed) (hknows : Knows i s deeds)
    {fits : α → List CredentialDeed → Prop} {work : CredentialProgram α}
    (hwork : ∀ t, Knows i t deeds → i ∈ t.openTransactions →
      Safe L.contract D.serve allowed i (Ends i fits) work t) :
    Safe L.contract D.serve allowed i (Ends i fits) (run work) s := by
  refine safe_begin hkept hknows fun t hknows_t hopen => ?_
  change Safe L.contract D.serve allowed i _ (work >>= _) t
  refine safe_bind (hwork t hknows_t hopen) fun u outcome after hknows_u hfits => ?_
  refine safe_quiet_bind hkept (quiet_perform (q := .finish) trivial) hknows_u
    fun v _ hknows_v _ => ?_
  exact safe_pure hknows_v hfits

/-! ## Reuse -/

/-- Comparisons were added to the deeds. -/
def Compared (deeds after : List CredentialDeed) : Prop :=
  ∃ comparisons, after = comparisons ++ deeds ∧
    ∀ deed ∈ comparisons, ∃ plaintext hash, deed = .compared plaintext hash

/-- Comparisons do not hide the deeds before them. -/
theorem Compared.mem {after : List CredentialDeed} (h : Compared deeds after)
    {deed : CredentialDeed} (hdeed : deed ∈ deeds) : deed ∈ after := by
  obtain ⟨comparisons, rfl, -⟩ := h
  exact List.mem_append_right comparisons hdeed

/-- Trying the known hashes says whether one of them verifies the candidate. -/
theorem safe_isPasswordReused (hkept : KeptBy D L allowed) (candidate : String)
    (known : List String)
    (hnotLogin : ∀ found, .foundCredential .authenticateWithPassword found ∉ deeds)
    (hknows : Knows i s deeds) :
    Safe L.contract D.serve allowed i
      (Ends i fun reused after => Compared deeds after ∧
        (reused = true ↔ ∃ hash ∈ known, D.hasher.verify candidate hash = true))
      (isPasswordReused candidate known) s := by
  induction known generalizing s deeds with
  | nil => exact safe_pure hknows ⟨⟨[], rfl, by simp⟩, by simp⟩
  | cons hash rest ih =>
    refine safe_verify hkept (fun t ht => .inl (ht ▸ hnotLogin)) hknows fun t hknows_t => ?_
    have hcompared : Compared deeds (.compared candidate hash :: deeds) :=
      ⟨[.compared candidate hash], rfl, by simp⟩
    split
    · rename_i hmatch
      exact safe_pure hknows_t ⟨hcompared, by simp [hmatch]⟩
    · rename_i hmatch
      refine (ih (by simpa using hnotLogin) hknows_t).imp ?_
      rintro u reused ⟨after, hknows_u, ⟨comparisons, hafter, hall⟩, hreused⟩
      refine ⟨after, hknows_u, ⟨comparisons ++ [.compared candidate hash], ?_, ?_⟩, ?_⟩
      · simp [hafter]
      · intro deed hdeed
        rcases List.mem_append.mp hdeed with hdeed | hdeed
        · exact hall deed hdeed
        · exact ⟨candidate, hash, List.mem_singleton.mp hdeed⟩
      · simpa [hmatch] using hreused

/-! ## Logging in -/

variable (D) in
/-- Every credential that the login has found it has saved again, unless the password was right. -/
def Answered (password : String) (deeds : List CredentialDeed) : Prop :=
  ∀ found, .foundCredential .authenticateWithPassword found ∈ deeds →
    (∃ before after, .wroteCredential .authenticateWithPassword before after ∈ deeds ∧
      after.userId = found.userId) ∨
    (.compared password found.passwordHash ∈ deeds ∧
      D.hasher.verify password found.passwordHash = true)

theorem Answered.of_plain_deed {password : String} (h : Answered D password deeds)
    {deed : CredentialDeed}
    (hdeed : ∀ found, deed ≠ .foundCredential .authenticateWithPassword found) :
    Answered D password (deed :: deeds) := by
  intro found hfound
  have hfound' := (List.mem_cons.mp hfound).resolve_left (Ne.symm (hdeed found))
  rcases h found hfound' with ⟨before, after, hwrote, huser⟩ | ⟨hcompared, hmatch⟩
  · exact .inl ⟨before, after, List.mem_cons_of_mem _ hwrote, huser⟩
  · exact .inr ⟨List.mem_cons_of_mem _ hcompared, hmatch⟩

variable (D) in
/-- The password was right for the credential of the user that the login has found. -/
structure Verified (password : String) (user : User) (credential : Credential)
    (deeds : List CredentialDeed) (found : Credential) : Prop where
  deed : .foundCredential .authenticateWithPassword found ∈ deeds
  compared : .compared password found.passwordHash ∈ deeds
  isMatch : D.hasher.verify password found.passwordHash = true
  userId : credential.userId = found.userId
  passwordHash : credential.passwordHash = found.passwordHash
  user : found.userId = user.id

variable (D) in
/-- What the transaction of a login concludes fits what it has done. -/
def FitsLogin (password : String) (outcome : AuthenticateWithPassword.Outcome)
    (deeds : List CredentialDeed) : Prop :=
  Answered D password deeds ∧ ∀ user credential, outcome = .ok user credential →
    ∃ found, Verified D password user credential deeds found

section Login

variable {rateLimitKey : RateLimitKey} {command : AuthenticateWithPasswordCommand}

theorem safe_verifyCredential (hkept : KeptBy D L allowed) {user : User} {credential : Credential}
    (now : ℤ)
    (huser : credential.userId = user.id)
    (hknows : Knows i s [.foundCredential .authenticateWithPassword credential]) :
    Safe L.contract D.serve allowed i (Ends i (FitsLogin D command.password))
      (AuthenticateWithPassword.verifyCredential D rateLimitKey command user credential now) s := by
  unfold AuthenticateWithPassword.verifyCredential
  split
  · -- a locked account counts the attempt without a look at the password
    refine safe_quiet_bind hkept (quiet_perform (q := .burnTime _) trivial) hknows
      fun t _ hknows_t _ => ?_
    refine safe_saveCredential hkept (fun u _ hu => ?_) hknows_t fun u before _ hknows_u => ?_
    · rw [Justified, hu]
      exact .failed (by simp) (by simp)
    refine safe_pure hknows_u ⟨fun found hfound => .inl ⟨_, _, List.mem_cons_self, ?_⟩, by simp⟩
    obtain rfl : found = credential := by simpa using hfound
    rfl
  · refine safe_verify hkept (fun t ht => .inr ⟨credential, ht, rfl⟩) hknows fun t hknows_t => ?_
    split
    · refine safe_saveCredential hkept (fun u _ hu => ?_) hknows_t fun u before _ hknows_u => ?_
      · rw [Justified, hu]
        exact .failed (by simp) (by simp)
      refine safe_quiet_bind hkept (quiet_perform (q := .recordRateLimitFailure _) trivial) hknows_u
        fun v _ hknows_v _ => ?_
      refine safe_pure hknows_v ⟨fun found hfound => .inl ⟨_, _, List.mem_cons_self, ?_⟩, by simp⟩
      obtain rfl : found = credential := by simpa using hfound
      rfl
    · rename_i hmatch
      replace hmatch : D.hasher.verify command.password credential.passwordHash = true := by
        simpa using hmatch
      have hanswered : Answered D command.password [.compared command.password
          credential.passwordHash, .foundCredential .authenticateWithPassword credential] := by
        intro found hfound
        obtain rfl : found = credential := by simpa using hfound
        exact .inr ⟨List.mem_cons_self, hmatch⟩
      split
      · exact safe_pure hknows_t ⟨hanswered, by simp⟩
      split
      · refine safe_pure hknows_t ⟨hanswered, fun user' credential' hok => ⟨credential, ?_⟩⟩
        cases hok
        exact ⟨by simp, by simp, hmatch, rfl, rfl, huser⟩
      · refine safe_saveCredential hkept (fun u _ hu => ?_) hknows_t fun u before _ hknows_u => ?_
        · rw [Justified, hu]
          exact .verified (by simp) List.mem_cons_self hmatch (by simp) (.inl (by simp))
        refine safe_pure hknows_u ⟨hanswered.of_plain_deed (by simp),
          fun user' credential' hok => ⟨credential, ?_⟩⟩
        cases hok
        exact ⟨by simp, by simp, hmatch, by simp, by simp, huser⟩

theorem safe_loginTransaction (hkept : KeptBy D L allowed) (email : Email) (now : ℤ)
    (hknows : Knows i s []) :
    Safe L.contract D.serve allowed i (Ends i (FitsLogin D command.password))
      (AuthenticateWithPassword.transaction D rateLimitKey command email now) s := by
  have hfail : ∀ t, Knows i t [] →
      Safe L.contract D.serve allowed i (Ends i (FitsLogin D command.password))
        (do
          countFailure D .login command.email
          burnTime command.password
          return .failed) t := by
    intro t hknows_t
    refine safe_quiet_bind hkept (quiet_countFailure D .login command.email) hknows_t
      fun u _ hknows_u _ => ?_
    refine safe_quiet_bind hkept (quiet_perform (q := .burnTime _) trivial) hknows_u
      fun v _ hknows_v _ => ?_
    exact safe_pure hknows_v ⟨fun found hfound => (nomatch hfound), by simp⟩
  refine safe_quiet_bind hkept (quiet_perform (q := .findUserByEmail email) trivial) hknows
    fun t found hknows_t _ => ?_
  cases found with
  | none => exact hfail t hknows_t
  | some user =>
    refine safe_findCredentialByUserId hkept ?_ hknows_t hfail
      fun u credential hknows_u huser _ => ?_
    · exact fun _ ht => ht
    · exact safe_verifyCredential hkept now huser hknows_u

/-- Upgrading a hash keeps the login answered. -/
theorem safe_upgradeHashIfStale (hkept : KeptBy D L allowed) {password : String} {user : User}
    {credential found : Credential} (hanswered : Answered D password deeds)
    (hverified : Verified D password user credential deeds found)
    (hknows : Knows i s deeds) :
    Safe L.contract D.serve allowed i
      (Ends i fun _ after => Answered D password after ∧ ∀ deed ∈ deeds, deed ∈ after)
      (AuthenticateWithPassword.upgradeHashIfStale D credential password) s := by
  unfold AuthenticateWithPassword.upgradeHashIfStale
  split
  · refine safe_hash hkept hknows fun t answer hknows_t hhashes => ?_
    cases answer with
    | none => exact safe_pure hknows_t ⟨hanswered, fun _ hdeed => hdeed⟩
    | some newHash =>
      refine safe_now hkept hknows_t fun u now hknows_u _ => ?_
      refine safe_bind (safe_run hkept hknows_u ?_) fun v _ after hknows_v hfits =>
        safe_pure hknows_v hfits
      intro v hknows_v _
      refine safe_saveCredential (f := pure) hkept (fun w _ hw => ?_) hknows_v
        fun w before _ hknows_w => ?_
      · rw [Justified, hw]
        refine .verified hverified.deed hverified.compared hverified.isMatch ?_ (.inr ?_)
        · exact hverified.userId
        · exact hhashes newHash rfl
      · exact safe_pure hknows_w ⟨hanswered.of_plain_deed (by simp),
          fun _ hdeed => List.mem_cons_of_mem _ hdeed⟩
  · exact safe_pure hknows ⟨hanswered, fun _ hdeed => hdeed⟩

variable (D) in
/-- The login has found a credential of the user, and the password verifies its hash. -/
def LoggedIn (password : String) (user : User) (deeds : List CredentialDeed) : Prop :=
  ∃ found, .foundCredential .authenticateWithPassword found ∈ deeds ∧ found.userId = user.id ∧
    D.hasher.verify password found.passwordHash = true

variable (D) in
/-- What a login returns fits what it has done. -/
def FitsLoginResult (password : String) (result : AuthenticateWithPasswordResult)
    (deeds : List CredentialDeed) : Prop :=
  Answered D password deeds ∧ ∀ success, result = .ok (.ok success) →
    LoggedIn D password success.user deeds

theorem safe_finishLogin (hkept : KeptBy D L allowed) {user : User}
    {credential found : Credential} (hanswered : Answered D command.password deeds)
    (hverified : Verified D command.password user credential deeds found)
    (hknows : Knows i s deeds) :
    Safe L.contract D.serve allowed i
      (Ends i (FitsLoginResult D command.password))
      (AuthenticateWithPassword.finishLogin D rateLimitKey command user credential) s := by
  refine safe_quiet_bind hkept (quiet_countSuccess D .login command.email) hknows
    fun t _ hknows_t _ => ?_
  refine safe_quiet_bind hkept (quiet_perform (q := .resetRateLimit _) trivial) hknows_t
    fun u _ hknows_u _ => ?_
  refine safe_bind (safe_upgradeHashIfStale hkept hanswered hverified hknows_u)
    fun v rehashed after hknows_v ⟨hanswered_v, hkeeps⟩ => ?_
  refine safe_quiet_bind hkept (quiet_conclude D user rehashed) hknows_v
    fun w success hknows_w huser => ?_
  refine safe_pure hknows_w ⟨hanswered_v, fun success' hok => ?_⟩
  cases hok
  rw [huser]
  exact ⟨found, hkeeps _ hverified.deed, hverified.user, hverified.isMatch⟩

/-- Without deeds nothing has been left unanswered. -/
theorem answered_nil (password : String) : Answered D password [] :=
  fun _ hfound => nomatch hfound

theorem safe_authenticateWithPassword (hkept : KeptBy D L allowed)
    (command : AuthenticateWithPasswordCommand) (hknows : Knows i s []) :
    Safe L.contract D.serve allowed i
      (Ends i (FitsLoginResult D command.password))
      (AuthenticateWithPassword.execute D command) s := by
  have hrefuse : ∀ t, Knows i t [] → Safe L.contract D.serve allowed i
      (Ends i (FitsLoginResult D command.password))
      (do
        burnTime command.password
        return .ok (.error (.authentication {}))) t := fun t hknows_t =>
    safe_quiet_bind hkept (quiet_perform (q := .burnTime _) trivial) hknows_t
      fun u _ hknows_u _ => safe_pure hknows_u ⟨answered_nil _, by simp⟩
  unfold AuthenticateWithPassword.execute
  refine safe_quiet_bind hkept (quiet_perform (q := .checkRateLimit _) trivial) hknows
    fun t limitResult hknows_t _ => ?_
  split
  · exact safe_pure hknows_t ⟨answered_nil _, by simp⟩
  refine safe_quiet_bind hkept (quiet_mayProceed D .login command.email) hknows_t
    fun u allowed hknows_u _ => ?_
  split
  · exact hrefuse u hknows_u
  split
  · exact hrefuse u hknows_u
  · refine safe_now hkept hknows_u fun v now hknows_v _ => ?_
    refine safe_bind (safe_run hkept hknows_v fun w hknows_w _ =>
      safe_loginTransaction hkept _ now hknows_w) fun w outcome after hknows_w hfits => ?_
    cases outcome with
    | locked => exact safe_pure hknows_w ⟨hfits.1, by simp⟩
    | failed => exact safe_pure hknows_w ⟨hfits.1, by simp⟩
    | ok user credential =>
      obtain ⟨found, hverified⟩ := hfits.2 user credential rfl
      exact safe_finishLogin hkept hfits.1 hverified hknows_w

end Login

/-! ## Resetting a password -/

/-- A reset that concludes with a user has saved a credential of that user, with the link that was
presented. -/
def FitsReset (tokenHash : String) (outcome : ConfirmPasswordReset.Outcome)
    (deeds : List CredentialDeed) : Prop :=
  ∀ user, outcome = .ok user → ∃ before after,
    .wroteCredential (.confirmPasswordReset tokenHash) before after ∈ deeds ∧
      after.userId = user.id

theorem safe_replaceCredential (hkept : KeptBy D L allowed)
    {tokenHash newPassword newHash : String} {user : User} {before : Option PasswordResetToken}
    {consumed : PasswordResetToken} (hhash : consumed.tokenHash = tokenHash)
    (hwrote : .wroteResetToken before consumed ∈ deeds)
    (hnotLogin : ∀ found, .foundCredential .authenticateWithPassword found ∉ deeds)
    (hknows : Knows i s deeds) :
    Safe L.contract D.serve allowed i (Ends i (FitsReset tokenHash))
      (ConfirmPasswordReset.replaceCredential D tokenHash newPassword newHash user) s := by
  refine safe_findCredentialByUserId hkept ?_ hknows (fun t hknows_t => ?_)
    fun t existing hknows_t huser _ => ?_
  · exact fun _ _ => trivial
  · refine safe_quiet_bind hkept (quiet_perform (q := .createId) trivial) hknows_t
      fun u id hknows_u _ => ?_
    refine safe_now hkept hknows_u fun v now hknows_v _ => ?_
    refine safe_saveCredential hkept (fun w _ hw => ?_) hknows_v fun w _ _ hknows_w => ?_
    · exact ⟨before, consumed, hw ▸ hwrote, hhash⟩
    · refine safe_pure hknows_w fun user' hok => ?_
      cases hok
      exact ⟨_, _, List.mem_cons_self, rfl⟩
  · refine safe_bind (safe_isPasswordReused hkept newPassword existing.knownHashes
      (by simpa using hnotLogin) hknows_t) fun u reused after hknows_u ⟨hcompared, _⟩ => ?_
    split
    · exact safe_pure hknows_u fun user' hok => nomatch hok
    refine safe_now hkept hknows_u fun v now hknows_v _ => ?_
    refine safe_saveCredential hkept (fun w _ hw => ?_) hknows_v fun w _ _ hknows_w => ?_
    · exact ⟨before, consumed,
        hw ▸ hcompared.mem (List.mem_cons_of_mem _ hwrote), hhash⟩
    · refine safe_pure hknows_w fun user' hok => ?_
      cases hok
      exact ⟨_, _, List.mem_cons_self, huser⟩

theorem safe_resetTransaction (hkept : KeptBy D L allowed) (command : ConfirmPasswordResetCommand)
    (newHash : String) (now : ℤ) (hknows : Knows i s []) :
    Safe L.contract D.serve allowed i
      (Ends i (FitsReset (hashToken D.sha256 command.token)))
      (ConfirmPasswordReset.transaction D command newHash now) s := by
  have hinvalid : ∀ t deeds, Knows i t deeds → Safe L.contract D.serve allowed i
      (Ends i (FitsReset (hashToken D.sha256 command.token)))
      (pure .invalid : CredentialProgram ConfirmPasswordReset.Outcome) t :=
    fun t deeds hknows_t => safe_pure hknows_t fun user hok => nomatch hok
  refine safe_findResetTokenByHash hkept hknows (fun t => hinvalid t []) fun t token hknows_t
    hhash => ?_
  dsimp only
  split
  · exact hinvalid t _ hknows_t
  cases hconsume : token.consume now with
  | error error => exact hinvalid t _ hknows_t
  | ok consumed =>
    refine safe_quiet_bind hkept (quiet_perform (q := .findUserById token.userId) trivial) hknows_t
      fun u found hknows_u _ => ?_
    cases found with
    | none => exact hinvalid u _ hknows_u
    | some user =>
      refine safe_saveResetToken hkept (fun v hv => ⟨token, now, ?_, hconsume⟩) hknows_u
        fun v before hknows_v => ?_
      · rw [hv]
        exact List.mem_cons_self
      refine safe_replaceCredential hkept ?_ List.mem_cons_self (by simp) hknows_v
      obtain ⟨-, -, rfl⟩ := PasswordResetToken.consume_eq_ok hconsume
      exact hhash

/-- The password was changed: that is what is returned, or that the sessions live on. -/
def ResetSucceeded
    (result : Except ThrownError (Except ValidationError ConfirmPasswordResetResult)) : Prop :=
  (∃ user, result = .ok (.ok ⟨user⟩)) ∨ result = .ok (.error revocationFailedError)

@[simp] theorem fieldErrors_invalidLinkError :
    invalidLinkError.fieldErrors = [("token", ["invalid"])] := rfl

@[simp] theorem fieldErrors_passwordReusedError (policy : PasswordHistoryPolicy) :
    (passwordReusedError policy).fieldErrors = [("password", ["reused"])] := rfl

@[simp] theorem fieldErrors_revocationFailedError :
    revocationFailedError.fieldErrors = [("sessions", ["revocation_failed"])] := rfl

/-- No other error says that the password was changed. -/
theorem not_resetSucceeded {error : ValidationError}
    (h : error.fieldErrors ≠ revocationFailedError.fieldErrors) :
    ¬ ResetSucceeded (.ok (.error error)) := by
  rintro (⟨user, hok⟩ | hrevocation)
  · cases hok
  · have herror := Except.error.inj (Except.ok.inj hrevocation)
    exact h (congrArg ValidationError.fieldErrors herror)

/-- What a reset returns fits what it has done. -/
def FitsResetResult (tokenHash : String)
    (result : Except ThrownError (Except ValidationError ConfirmPasswordResetResult))
    (deeds : List CredentialDeed) : Prop :=
  ResetSucceeded result → ∃ before after,
    .wroteCredential (.confirmPasswordReset tokenHash) before after ∈ deeds ∧
      ∀ user, result = .ok (.ok ⟨user⟩) → after.userId = user.id

theorem safe_finishReset (hkept : KeptBy D L allowed) {rateLimitKey : RateLimitKey}
    {tokenHash : String} {outcome : ConfirmPasswordReset.Outcome}
    (hfits : FitsReset tokenHash outcome deeds) (hknows : Knows i s deeds) :
    Safe L.contract D.serve allowed i (Ends i (FitsResetResult tokenHash))
      (ConfirmPasswordReset.finishReset D rateLimitKey tokenHash outcome) s := by
  cases outcome with
  | invalid =>
    refine safe_quiet_bind hkept (quiet_countFailure D .passwordReset tokenHash) hknows
      fun t _ hknows_t _ => safe_pure hknows_t fun hsucceeded => ?_
    exact absurd hsucceeded (not_resetSucceeded (by simp))
  | passwordReused =>
    refine safe_pure hknows fun hsucceeded => ?_
    exact absurd hsucceeded (not_resetSucceeded (by simp))
  | ok user =>
    obtain ⟨before, after, hwrote, huser⟩ := hfits user rfl
    refine safe_quiet_bind hkept (quiet_countSuccess D .passwordReset tokenHash) hknows
      fun t _ hknows_t _ => ?_
    refine safe_quiet_bind hkept (quiet_perform (q := .revokeAllForUser user.id) trivial) hknows_t
      fun u revoked hknows_u _ => ?_
    split
    · exact safe_pure hknows_u fun _ => ⟨before, after, hwrote, fun user' hok => nomatch hok⟩
    refine safe_quiet_bind hkept (quiet_perform (q := .resetRateLimit _) trivial) hknows_u
      fun v _ hknows_v _ => ?_
    refine safe_pure hknows_v fun _ => ⟨before, after, hwrote, fun user' hok => ?_⟩
    cases hok
    exact huser

theorem safe_confirmPasswordReset (hkept : KeptBy D L allowed)
    (command : ConfirmPasswordResetCommand) (hknows : Knows i s []) :
    Safe L.contract D.serve allowed i
      (Ends i (FitsResetResult (hashToken D.sha256 command.token)))
      (ConfirmPasswordReset.execute D command) s := by
  unfold ConfirmPasswordReset.execute
  refine safe_quiet_bind hkept (quiet_perform (q := .checkRateLimit _) trivial) hknows
    fun t limitResult hknows_t _ => ?_
  split
  · exact safe_pure hknows_t fun hsucceeded => by simp [ResetSucceeded] at hsucceeded
  split
  · rename_i error herror
    refine safe_pure hknows_t fun hsucceeded => absurd hsucceeded (not_resetSucceeded ?_)
    -- a policy names the field `password`, never `sessions`
    rcases RawPassword.fieldErrors_of_create herror with hfield | hfield
    · simp [hfield]
    · simp [hfield]
  · refine safe_now hkept hknows_t fun u now hknows_u _ => ?_
    refine safe_quiet_bind hkept (quiet_mayProceed D .passwordReset _) hknows_u
      fun v allowed hknows_v _ => ?_
    split
    · refine safe_pure hknows_v fun hsucceeded => absurd hsucceeded (not_resetSucceeded ?_)
      simp
    refine safe_hash hkept hknows_v fun w answer hknows_w _ => ?_
    cases answer with
    | none => exact safe_pure hknows_w fun hsucceeded => by simp [ResetSucceeded] at hsucceeded
    | some newHash =>
      refine safe_bind (safe_run hkept hknows_w fun x hknows_x _ =>
        safe_resetTransaction hkept command newHash now hknows_x) fun x outcome after hknows_x
          hfits => ?_
      exact safe_finishReset hkept hfits hknows_x

/-! ## Changing a password -/

variable (D) in
/-- The deeds of a re-authentication that let the change go on: the credential that was found has
the current password, and the new one was not used before. -/
def Reauthenticated (command : ChangePasswordCommand) (userId : String)
    (deeds : List CredentialDeed) : Prop :=
  ∃ found, .foundCredential .changePassword found ∈ deeds ∧ found.userId = userId ∧
    D.hasher.verify command.currentPassword found.passwordHash = true ∧
    ¬ found.IsReused D.hasher.verify command.newPassword

theorem safe_reauthenticate (hkept : KeptBy D L allowed) (command : ChangePasswordCommand)
    (hknows : Knows i s []) :
    Safe L.contract D.serve allowed i
      (Ends i fun outcome after => ∀ user, outcome = .ok user →
        Reauthenticated D command user.id after)
      (ChangePassword.reauthenticate command) s := by
  refine safe_quiet_bind hkept (quiet_perform (q := .findUserById command.userId) trivial) hknows
    fun t found hknows_t _ => ?_
  cases found with
  | none => exact safe_pure hknows_t fun user hok => nomatch hok
  | some user =>
    refine safe_findCredentialByUserId hkept ?_ hknows_t (fun u hknows_u => ?_)
      fun u credential hknows_u huser _ => ?_
    · exact fun _ _ => trivial
    · exact safe_pure hknows_u fun user' hok => nomatch hok
    refine safe_verify hkept (fun v hv => .inl (by simp [hv])) hknows_u fun v hknows_v => ?_
    split
    · exact safe_pure hknows_v fun user' hok => nomatch hok
    rename_i hmatch
    refine safe_bind (safe_isPasswordReused hkept command.newPassword credential.knownHashes
      (by simp) hknows_v) fun w reused after hknows_w ⟨hcompared, hreused⟩ => ?_
    split
    · exact safe_pure hknows_w fun user' hok => nomatch hok
    · rename_i hfresh
      refine safe_pure hknows_w fun user' hok => ?_
      cases hok
      refine ⟨credential, hcompared.mem (by simp), huser, ?_, ?_⟩
      · simpa using hmatch
      · exact fun hused => hfresh (hreused.mpr hused)

variable (L) in
/-- A credential was found and replaced; it was the stored one if transactions are isolated. -/
def Rotated (deeds : List CredentialDeed) : Prop :=
  ∃ found before after, .foundCredential .changePassword found ∈ deeds ∧
    .wroteCredential .changePassword before after ∈ deeds ∧ (L.isolated → before = some found)

/-- The credential that is replaced is the one that was found in the same transaction. -/
theorem safe_rotate (hkept : KeptBy D L allowed) (user : User) (newHash : String)
    (hopen : i ∈ s.openTransactions) (hknows : Knows i s deeds) :
    Safe L.contract D.serve allowed i
      (Ends i fun replaced after => (∃ added, after = added ++ deeds) ∧
        (replaced = true → Rotated L after))
      (ChangePassword.rotate D user newHash) s := by
  refine safe_findCredentialByUserId hkept ?_ hknows (fun t hknows_t => ?_)
    fun t found hknows_t huser hfound => ?_
  · exact fun _ _ => trivial
  · exact safe_pure hknows_t ⟨⟨[], rfl⟩, fun hreplaced => nomatch hreplaced⟩
  obtain ⟨hopen_t, hfound_t⟩ := hfound hopen
  refine safe_now hkept hknows_t fun u now hknows_u hsame => ?_
  obtain ⟨hopen_u, hsame⟩ := hsame hopen_t
  have hfound_u : L.isolated → u.credentialsByUserId.get? found.userId = some found := by
    intro hisolated
    rw [hsame hisolated, huser]
    exact hfound_t
  refine safe_saveCredential hkept (fun v hv hknows_v => ?_) hknows_u
    fun v before hbefore hknows_v => ?_
  · refine ⟨found, hknows_v ▸ List.mem_cons_self, rfl, fun hisolated => ?_⟩
    rw [hv.still hisolated hopen_u]
    exact hfound_u hisolated
  · refine safe_pure hknows_v ⟨⟨[_, _], rfl⟩, fun _ => ?_⟩
    refine ⟨found, before, found.rotatePassword newHash D.passwordHistoryPolicy now, ?_, ?_, ?_⟩
    · exact List.mem_cons_of_mem _ List.mem_cons_self
    · exact List.mem_cons_self
    · exact fun hisolated => (hbefore hopen_u hisolated).trans (hfound_u hisolated)

variable (D L) in
/-- What a change returns fits what it has done. -/
def FitsChangeResult (command : ChangePasswordCommand)
    (result : Except ThrownError (Except ValidationError ChangePasswordResult))
    (deeds : List CredentialDeed) : Prop :=
  ∀ user, result = .ok (.ok ⟨user⟩) → Reauthenticated D command user.id deeds ∧ Rotated L deeds

theorem Reauthenticated.of_append {command : ChangePasswordCommand} {userId : String}
    (h : Reauthenticated D command userId deeds) (added : List CredentialDeed) :
    Reauthenticated D command userId (added ++ deeds) := by
  obtain ⟨found, hfound, hrest⟩ := h
  exact ⟨found, List.mem_append_right added hfound, hrest⟩

theorem safe_changePassword (hkept : KeptBy D L allowed) (command : ChangePasswordCommand)
    (hknows : Knows i s []) :
    Safe L.contract D.serve allowed i (Ends i (FitsChangeResult D L command))
      (ChangePassword.execute D command) s := by
  unfold ChangePassword.execute
  split
  · exact safe_pure hknows fun user hok => nomatch hok
  refine safe_bind (safe_run hkept hknows fun t hknows_t _ =>
    safe_reauthenticate hkept command hknows_t) fun t outcome after hknows_t hfits => ?_
  cases outcome with
  | ok user =>
    refine safe_hash hkept hknows_t fun u answer hknows_u _ => ?_
    cases answer with
    | none => exact safe_pure hknows_u fun user' hok => nomatch hok
    | some newHash =>
      refine safe_bind (safe_run hkept hknows_u fun v hknows_v hopen =>
        safe_rotate hkept user newHash hopen hknows_v)
        fun v replaced after' hknows_v ⟨⟨added, hadded⟩, hrotated⟩ => ?_
      split
      · rename_i hreplaced
        refine safe_pure hknows_v fun user' hok => ⟨?_, hrotated hreplaced⟩
        cases hok
        rw [hadded]
        exact (hfits user rfl).of_append added
      · exact safe_pure hknows_v fun user' hok => nomatch hok
  | _ => exact safe_pure hknows_t fun user hok => nomatch hok

/-! ## The walk through the use cases -/

variable (D L) in
/-- What a use case that has returned has done. -/
def Done (i : ℕ) (t : CredentialStore) : (c : CredentialCommand) → c.Result → Prop
  | .authenticateWithPassword command, result =>
    FitsLoginResult D command.password result (t.deedsOf i)
  | .confirmPasswordReset command, result =>
    FitsResetResult (hashToken D.sha256 command.token) result (t.deedsOf i)
  | .changePassword command, result => FitsChangeResult D L command result (t.deedsOf i)

/-- Every use case, started by a thread that has done nothing yet, keeps to the contract. -/
theorem safe_credentialCommand (hkept : KeptBy D L allowed) (c : CredentialCommand)
    (hidle : Knows i s []) :
    Safe L.contract D.serve allowed i (fun t => Done D L i t c) (D.body c) s := by
  cases c with
  | authenticateWithPassword command =>
    refine (safe_authenticateWithPassword hkept command hidle).imp ?_
    rintro t result ⟨deeds, hknows_t, hfits⟩
    change FitsLoginResult D command.password result (t.deedsOf i)
    rw [hknows_t]
    exact hfits
  | confirmPasswordReset command =>
    refine (safe_confirmPasswordReset hkept command hidle).imp ?_
    rintro t result ⟨deeds, hknows_t, hfits⟩
    change FitsResetResult (hashToken D.sha256 command.token) result (t.deedsOf i)
    rw [hknows_t]
    exact hfits
  | changePassword command =>
    refine (safe_changePassword hkept command hidle).imp ?_
    rintro t result ⟨deeds, hknows_t, hfits⟩
    change FitsChangeResult D L command result (t.deedsOf i)
    rw [hknows_t]
    exact hfits

/-! ## Runs -/

variable (D L allowed) in
/-- The use cases keep to the contract. -/
abbrev SoundCredentials (P : CredentialPool) : Prop :=
  Sound L.contract D.serve allowed (fun i t => Knows i t [])
    (fun i c _ t result => Done D L i t c result) P

/-- Before anything has happened the use cases keep to the contract. -/
theorem soundCredentials_initial (hjournal : s.journal = []) (hinv : L.inv s) :
    SoundCredentials D L allowed (Pool.initial s) :=
  sound_initial hinv fun i => by simp [Knows, deedsOf, hjournal]

/-- In every run whose calls meet `allowed` the use cases keep to the contract. -/
theorem soundCredentials_of_run (hkept : KeptBy D L allowed) {P P' : CredentialPool}
    (h : SoundCredentials D L allowed P)
    (hrun : RunWhile D.step (fun P e => P.Allows allowed e) P P') :
    SoundCredentials D L allowed P' :=
  sound_of_run (fun _ _ _ hst hidle => hidle.of_rely hst)
    (fun _ c _ _ hidle => safe_credentialCommand hkept c hidle) h hrun

/-- During a run the journal only grows. -/
theorem journal_suffix_of_run {ok : CredentialPool → PoolEvent CredentialCommand CredentialInput →
    Prop} {P P' : CredentialPool} (hrun : RunWhile D.step ok P P') :
    P.store.journal <:+ P'.store.journal := by
  induction hrun with
  | refl => exact List.suffix_refl _
  | tail _ _ hstep ih =>
    rcases Pool.step_cases hstep with ⟨j, c, -, -, rfl⟩ |
      ⟨j, ω, c, begun, q, k, r, t, -, -, hserve, rfl⟩
    · exact ih
    · exact ih.trans (journal_suffix_of_serve hserve)

end Verixa.Credentials
