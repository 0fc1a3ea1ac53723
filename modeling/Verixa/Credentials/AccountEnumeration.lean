import Verixa.Credentials.SoloCalls

/-!
# What failed logins tell about an account

Somebody who tries one email address again and again, with passwords that are not the account's,
sees a thrown rate limit or a returned error.  The returned errors are all alike.  But the rate
limiter hears of a failure only when there was a credential to compare the password with, so that
its refusals tell that there is an account, unless no number of failures makes it refuse.
-/

namespace Verixa.Credentials

open Concurrency CredentialStore CredentialCalls

/-! ## Attempts and what is seen of them -/

/-- What is seen of a login from outside. -/
inductive LoginObservation where
  | threw (error : ThrownError)
  | refused (code message : String) (httpStatusHint : ℕ)
  | signedIn
  deriving DecidableEq

/-- What is seen of the outcome of a login. -/
def observe : AuthenticateWithPasswordResult → LoginObservation
  | .error error => .threw error
  | .ok (.error (.authentication error)) => .refused error.code error.message error.httpStatusHint
  | .ok (.error (.accountLocked error)) => .refused error.code error.message error.httpStatusHint
  | .ok (.ok _) => .signedIn

/-- A password that is tried between two moments. -/
structure LoginAttempt where
  password : String
  start : ℤ
  finish : ℤ
  deriving DecidableEq

variable (D : CredentialDeployment) (i : ℕ) (email : String)

/-- The attempts at an email address, made one after another from a store and a moment on, can be
seen to end so and leave that store. -/
inductive Attempts : ℤ → CredentialStore → List LoginAttempt → List LoginObservation →
    CredentialStore → Prop
  | nil (began : ℤ) (s : CredentialStore) : Attempts began s [] [] s
  | cons {began : ℤ} {s t u : CredentialStore} {attempt : LoginAttempt}
      {rest : List LoginAttempt} {observations : List LoginObservation}
      {result : AuthenticateWithPasswordResult} (hbegan : began ≤ attempt.start)
      (hclock : attempt.start ≤ attempt.finish)
      (hruns : RunsWithin D attempt.start attempt.finish i
        (AuthenticateWithPassword.execute D ⟨email, attempt.password⟩) s result t)
      (hrest : Attempts attempt.finish t rest observations u) :
      Attempts began s (attempt :: rest) (observe result :: observations) u

/-- The email address has an account with this credential. -/
def HasCredential (s : CredentialStore) (credential : Credential) : Prop :=
  ∃ address user, Email.create D.toLowerCase email = .ok address ∧
    s.findUserByEmail address = some user ∧
    s.credentialsByUserId.get? user.id = some credential

/-- The email address has no account with a credential. -/
def LacksCredential (s : CredentialStore) : Prop :=
  ∀ credential, ¬HasCredential D email s credential

/-- Passwords that are not the account's are answered alike in both stores, whatever is tried. -/
def SeenAlike (credential : Credential) (s t : CredentialStore) : Prop :=
  ∀ began attempts seen seen' s' t',
    (∀ attempt ∈ attempts, D.hasher.verify attempt.password credential.passwordHash = false) →
    Attempts D i email began s attempts seen s' → Attempts D i email began t attempts seen' t' →
    seen = seen'

/-! ## The limiters -/

/-- Under which key the rate limiter knows the email address. -/
def loginKey : RateLimitKey := { action := .login, identifier := email }

/-- The calls that the limiters count, after so many failures more. -/
def callsAfter (calls : RateLimitKey → List RateLimiterCall) (failures : ℕ) :
    RateLimitKey → List RateLimiterCall :=
  Function.update calls (loginKey email)
    (calls (loginKey email) ++ List.replicate failures .recordFailure)

/-- The answer of the rate limiter after these calls. -/
def loginLimit (calls : RateLimitKey → List RateLimiterCall) : RateLimitResult :=
  D.rateLimiter.check (loginKey email) (calls (loginKey email))

/-- The limiter of the brute-force policy, if there is one, admits after these calls. -/
def gateAdmits (calls : RateLimitKey → List RateLimiterCall) : Bool :=
  match D.bruteForce with
  | none => true
  | some policy =>
    policy.limiter.all fun limiter =>
      let key : RateLimitKey :=
        { action := .login, identifier := D.toLowerCase (Encoding.trim email) }
      (limiter.check key (calls key)).allowed

/-- Enough failures make the rate limiter refuse, which has admitted at first, before the limiter
of the brute-force policy keeps further failures from it. -/
structure TellsFailures (credential : Credential) (s : CredentialStore) : Prop where
  admitted : (loginLimit D email s.rateLimiterCalls).allowed = true
  wrong : ∃ password, D.hasher.verify password credential.passwordHash = false
  refused : ∃ failures, (loginLimit D email (callsAfter email s.rateLimiterCalls failures)).allowed
      = false ∧
    ∀ fewer < failures, gateAdmits D email (callsAfter email s.rateLimiterCalls fewer) = true

/-! ## Accounts that a login leaves alone -/

/-- The same users with the same passwords. -/
structure SameAccounts (s t : CredentialStore) : Prop where
  usersById : t.usersById = s.usersById
  passwordHash : ∀ userId, (t.credentialsByUserId.get? userId).map Credential.passwordHash =
    (s.credentialsByUserId.get? userId).map Credential.passwordHash

variable {D i email} {s t u : CredentialStore}

theorem SameAccounts.refl (s : CredentialStore) : SameAccounts s s := ⟨rfl, fun _ => rfl⟩

theorem SameAccounts.symm (h : SameAccounts s t) : SameAccounts t s :=
  ⟨h.usersById.symm, fun userId => (h.passwordHash userId).symm⟩

theorem SameAccounts.trans (hst : SameAccounts s t) (htu : SameAccounts t u) :
    SameAccounts s u :=
  ⟨htu.usersById.trans hst.usersById,
    fun userId => (htu.passwordHash userId).trans (hst.passwordHash userId)⟩

/-- The credential of the email address still has the same hash. -/
theorem SameAccounts.hasCredential (h : SameAccounts s t) {credential : Credential}
    (hs : HasCredential D email s credential) :
    ∃ credential', HasCredential D email t credential' ∧
      credential'.passwordHash = credential.passwordHash := by
  obtain ⟨address, user, haddress, huser, hcredential⟩ := hs
  have hhash := h.passwordHash user.id
  rw [hcredential, Option.map_some, Option.map_eq_some_iff] at hhash
  obtain ⟨credential', hcredential', heq⟩ := hhash
  refine ⟨credential', ⟨address, user, haddress, ?_, hcredential'⟩, heq⟩
  rw [CredentialStore.findUserByEmail, h.usersById]
  exact huser

theorem SameAccounts.lacksCredential (h : SameAccounts s t) (hs : LacksCredential D email s) :
    LacksCredential D email t := by
  intro credential hcredential
  obtain ⟨credential', hcredential', -⟩ := h.symm.hasCredential hcredential
  exact hs credential' hcredential'

/-- The email address has one credential at most. -/
theorem HasCredential.unique {credential credential' : Credential}
    (h : HasCredential D email s credential) (h' : HasCredential D email s credential') :
    credential = credential' := by
  obtain ⟨address, user, haddress, huser, hcredential⟩ := h
  obtain ⟨address', user', haddress', huser', hcredential'⟩ := h'
  obtain rfl : address = address' := Except.ok.inj (haddress.symm.trans haddress')
  obtain rfl : user = user' := Option.some.inj (huser.symm.trans huser')
  exact Option.some.inj (hcredential.symm.trans hcredential')

/-- Counting a failure of a credential leaves the accounts alone. -/
theorem sameAccounts_saveCredential {useCase : CredentialUseCase} {userId : String}
    {credential : Credential} (h : s.credentialsByUserId.get? userId = some credential)
    (policy : LockoutPolicy) (now : ℤ) :
    SameAccounts s (s.saveCredential i useCase (credential.recordFailedAttempt policy now)) := by
  refine ⟨rfl, fun id => ?_⟩
  have hput :=
    KeyedMap.get?_put s.credentialsByUserId (credential.recordFailedAttempt policy now) id
  obtain rfl := KeyedMap.key_of_get? h
  change Option.map _ (KeyedMap.get? (s.credentialsByUserId.put _) id) = _
  rw [hput]
  split
  · rename_i hid
    rw [← hid, Credential.userId_recordFailedAttempt, h]
    rfl
  · rfl

/-! ## What a failed login does -/

section Walk

variable {start finish : ℤ} {password : String}

variable (D email password) in
/-- If the email address has a credential, the password is not that of the account. -/
def WrongPassword (s : CredentialStore) : Prop :=
  ∀ credential, HasCredential D email s credential →
    D.hasher.verify password credential.passwordHash = false

variable (D email) in
/-- The transaction of a failed login has counted a failure, or there was nothing to compare the
password with. -/
structure FailedTransaction (now : ℤ) (s t : CredentialStore) : Prop where
  accounts : SameAccounts s t
  calls : (t.rateLimiterCalls = s.rateLimiterCalls ∧ (LacksCredential D email s ∨
      ∃ credential, HasCredential D email s credential ∧ credential.isLockedAt now = true)) ∨
    ((∃ credential, HasCredential D email s credential) ∧
      t.rateLimiterCalls = callsAfter email s.rateLimiterCalls 1)

/-- The same records lead to the same credential. -/
theorem hasCredential_of_sameRecords (h : SameRecords s t) {credential : Credential} :
    HasCredential D email t credential ↔ HasCredential D email s credential := by
  rw [HasCredential, HasCredential, h.credentialsByUserId]
  have husers : ∀ address, t.findUserByEmail address = s.findUserByEmail address := by
    intro address
    rw [CredentialStore.findUserByEmail, h.usersById]
    rfl
  simp only [husers]

/-- Only the records matter. -/
theorem FailedTransaction.of_sameRecords {now : ℤ} (hsame : SameRecords s u)
    (h : FailedTransaction D email now u t) : FailedTransaction D email now s t := by
  have hhas : ∀ credential,
      HasCredential D email u credential ↔ HasCredential D email s credential :=
    fun credential => hasCredential_of_sameRecords hsame
  have haccounts : SameAccounts s u :=
    ⟨hsame.usersById, fun userId => by rw [hsame.credentialsByUserId]⟩
  have hcalls := h.calls
  simp only [LacksCredential, hhas, hsame.rateLimiterCalls] at hcalls
  exact ⟨haccounts.trans h.accounts, hcalls⟩

/-- Without a credential a failure is counted by the brute-force policy alone. -/
theorem failedTransaction_of_lacks (now : ℤ) {outcome : AuthenticateWithPassword.Outcome}
    (hlacks : LacksCredential D email s)
    (h : RunsWithin D start finish i (do
      countFailure D .login email
      burnTime password
      return AuthenticateWithPassword.Outcome.failed) s outcome t) :
    outcome = .failed ∧ FailedTransaction D email now s t := by
  obtain ⟨_, u, hcount, hrest⟩ := runs_bind.mp h
  obtain ⟨records, rfl⟩ := of_runs_countFailure hcount
  obtain ⟨_, v, hburn, hret⟩ := runs_bind.mp hrest
  obtain ⟨-, rfl⟩ := runs_burnTime.mp hburn
  obtain ⟨rfl, rfl⟩ := runs_ret.mp hret
  exact ⟨rfl, ⟨rfl, fun _ => rfl⟩, .inl ⟨rfl, .inl hlacks⟩⟩

/-- With a credential a failure is counted by the rate limiter, unless the account is locked. -/
theorem failedTransaction_of_verifyCredential {user : User} {credential : Credential} {now : ℤ}
    {outcome : AuthenticateWithPassword.Outcome}
    (hhas : HasCredential D email s credential)
    (hcredential : s.credentialsByUserId.get? user.id = some credential)
    (hwrong : D.hasher.verify password credential.passwordHash = false)
    (h : RunsWithin D start finish i (AuthenticateWithPassword.verifyCredential D (loginKey email)
      ⟨email, password⟩ user credential now) s outcome t) :
    (outcome = .failed ∨ outcome = .locked) ∧ FailedTransaction D email now s t := by
  unfold AuthenticateWithPassword.verifyCredential at h
  split at h
  · rename_i hlocked
    obtain ⟨_, u, hburn, hrest⟩ := runs_bind.mp h
    obtain ⟨-, rfl⟩ := runs_burnTime.mp hburn
    obtain ⟨_, v, hsave, hret⟩ := runs_bind.mp hrest
    obtain ⟨-, rfl⟩ := runs_saveCredential.mp hsave
    obtain ⟨rfl, rfl⟩ := runs_ret.mp hret
    refine ⟨.inr rfl, sameAccounts_saveCredential hcredential _ now, .inl ⟨rfl, .inr ?_⟩⟩
    exact ⟨credential, hhas, hlocked⟩
  · obtain ⟨isMatch, u, hverify, hrest⟩ := runs_bind.mp h
    obtain ⟨rfl, rfl⟩ := runs_verify.mp hverify
    simp only [hwrong, Bool.not_false, if_true] at hrest
    obtain ⟨_, v, hsave, hrest⟩ := runs_bind.mp hrest
    obtain ⟨-, rfl⟩ := runs_saveCredential.mp hsave
    obtain ⟨_, w, hrecord, hret⟩ := runs_bind.mp hrest
    obtain ⟨-, rfl⟩ := runs_recordRateLimitFailure.mp hrecord
    obtain ⟨rfl, rfl⟩ := runs_ret.mp hret
    have haccounts : SameAccounts s (s.saveCredential i .authenticateWithPassword
        (credential.recordFailedAttempt D.lockoutPolicy now)) :=
      sameAccounts_saveCredential hcredential _ _
    exact ⟨.inl rfl, ⟨haccounts.usersById, haccounts.passwordHash⟩, .inr ⟨⟨credential, hhas⟩, rfl⟩⟩

/-- The transaction of a login with a wrong password fails. -/
theorem failedTransaction_of_runs {address : Email} {now : ℤ}
    {outcome : AuthenticateWithPassword.Outcome}
    (haddress : Email.create D.toLowerCase email = .ok address)
    (hwrong : WrongPassword D email password s)
    (h : RunsWithin D start finish i (AuthenticateWithPassword.transaction D (loginKey email)
      ⟨email, password⟩ address now) s outcome t) :
    (outcome = .failed ∨ outcome = .locked) ∧ FailedTransaction D email now s t := by
  obtain ⟨found, u, hfind, hrest⟩ := runs_bind.mp h
  obtain ⟨rfl, rfl⟩ := runs_findUserByEmail.mp hfind
  split at hrest
  · rename_i hnone
    have hlacks : LacksCredential D email u := by
      rintro credential ⟨address', user, haddress', huser, -⟩
      obtain rfl : address = address' := Except.ok.inj (haddress.symm.trans haddress')
      rw [hnone] at huser
      cases huser
    obtain ⟨rfl, hfailed⟩ := failedTransaction_of_lacks now hlacks hrest
    exact ⟨.inl rfl, hfailed⟩
  rename_i user huser
  obtain ⟨found, v, hfind, hrest⟩ := runs_bind.mp hrest
  obtain ⟨rfl, rfl⟩ := runs_findCredentialByUserId.mp hfind
  have hsame := sameRecords_noteFound u i (.foundCredential .authenticateWithPassword)
    (u.credentialsByUserId.get? user.id)
  split at hrest
  · rename_i hnone
    have hlacks : LacksCredential D email u := by
      rintro credential ⟨address', user', haddress', huser', hcredential⟩
      obtain rfl : address = address' := Except.ok.inj (haddress.symm.trans haddress')
      obtain rfl : user = user' := Option.some.inj (huser.symm.trans huser')
      rw [hnone] at hcredential
      cases hcredential
    have hlacks' : LacksCredential D email _ := fun credential hcredential =>
      hlacks credential ((hasCredential_of_sameRecords hsame).mp hcredential)
    obtain ⟨rfl, hfailed⟩ := failedTransaction_of_lacks now hlacks' hrest
    exact ⟨.inl rfl, hfailed.of_sameRecords hsame⟩
  · rename_i credential hcredential
    have hhas : HasCredential D email u credential := ⟨address, user, haddress, huser, hcredential⟩
    have hfound : (u.noteFound i (.foundCredential .authenticateWithPassword)
        (u.credentialsByUserId.get? user.id)).credentialsByUserId.get? user.id =
          some credential := by
      rw [hsame.credentialsByUserId, hcredential]
    obtain ⟨houtcome, hfailed⟩ := failedTransaction_of_verifyCredential
      ((hasCredential_of_sameRecords hsame).mpr hhas) hfound (hwrong credential hhas) hrest
    exact ⟨houtcome, hfailed.of_sameRecords hsame⟩

variable (D i email) in
/-- What is seen of a failed login after these calls to the limiters. -/
def expected (calls : RateLimitKey → List RateLimiterCall) : LoginObservation :=
  if (loginLimit D email calls).allowed then observe (.ok (.error (.authentication {})))
  else .threw (rateLimitExceeded (loginKey email) (loginLimit D email calls).resetAt)

variable (D email) in
/-- A failed login is seen as expected, and its failure was counted by the rate limiter, or there
was a reason not to. -/
structure FailedLogin (start finish : ℤ) (s t : CredentialStore)
    (result : AuthenticateWithPasswordResult) : Prop where
  accounts : SameAccounts s t
  observed : observe result = expected D email s.rateLimiterCalls
  calls : (t.rateLimiterCalls = s.rateLimiterCalls ∧
      ((loginLimit D email s.rateLimiterCalls).allowed = true → ∃ now, start ≤ now ∧
        (gateOpens D s .login email now = false ∨ LacksCredential D email s ∨
          ∃ credential, HasCredential D email s credential ∧ credential.isLockedAt now = true))) ∨
    ((loginLimit D email s.rateLimiterCalls).allowed = true ∧
      gateAdmits D email s.rateLimiterCalls = true ∧
      (∃ credential, HasCredential D email s credential) ∧
      t.rateLimiterCalls = callsAfter email s.rateLimiterCalls 1)

/-- An open gate is one whose limiter admits. -/
theorem gateAdmits_of_gateOpens {now : ℤ} (h : gateOpens D s .login email now = true) :
    gateAdmits D email s.rateLimiterCalls = true := by
  unfold gateOpens at h
  unfold gateAdmits
  cases hpolicy : D.bruteForce with
  | none => rfl
  | some policy =>
    simp only [hpolicy, Bool.and_eq_true] at h
    exact h.2

/-- A login with a wrong password fails. -/
theorem failedLogin_of_runs (hclock : start ≤ finish) {result : AuthenticateWithPasswordResult}
    (hwrong : WrongPassword D email password s)
    (h : RunsWithin D start finish i (AuthenticateWithPassword.execute D ⟨email, password⟩) s
      result t) : FailedLogin D email start finish s t result := by
  obtain ⟨limit, u, hlimit, hrest⟩ := runs_bind.mp h
  obtain ⟨rfl, rfl⟩ := runs_checkRateLimit.mp hlimit
  change RunsWithin D start finish i (if (!(loginLimit D email u.rateLimiterCalls).allowed) = true
    then _ else _) u _ t at hrest
  by_cases hadmitted : (loginLimit D email u.rateLimiterCalls).allowed = true
  swap
  · rw [if_pos (by simpa using hadmitted)] at hrest
    obtain ⟨rfl, rfl⟩ := runs_ret.mp hrest
    refine ⟨.refl t, ?_, .inl ⟨rfl, fun h => absurd h hadmitted⟩⟩
    rw [expected, if_neg hadmitted]
    rfl
  rw [if_neg (by simpa using hadmitted)] at hrest
  have hexpected : expected D email u.rateLimiterCalls =
      observe (.ok (.error (.authentication {}))) := by
    rw [expected, if_pos hadmitted]
  obtain ⟨proceeds, v, hgate, hrest⟩ := runs_bind.mp hrest
  obtain ⟨now, ⟨hstart, -⟩, rfl, rfl⟩ := (runs_mayProceed hclock).mp hgate
  obtain ⟨records, hafter⟩ := afterGate_eq D u .login email now
  rw [hafter] at hrest
  split at hrest
  · rename_i hclosed
    obtain ⟨_, w, hburn, hret⟩ := runs_bind.mp hrest
    obtain ⟨-, rfl⟩ := runs_burnTime.mp hburn
    obtain ⟨rfl, rfl⟩ := runs_ret.mp hret
    refine ⟨⟨rfl, fun _ => rfl⟩, hexpected.symm, .inl ⟨rfl, fun _ => ⟨now, hstart, .inl ?_⟩⟩⟩
    simpa using hclosed
  rename_i hopened
  split at hrest
  · rename_i herror
    obtain ⟨_, w, hburn, hret⟩ := runs_bind.mp hrest
    obtain ⟨-, rfl⟩ := runs_burnTime.mp hburn
    obtain ⟨rfl, rfl⟩ := runs_ret.mp hret
    refine ⟨⟨rfl, fun _ => rfl⟩, hexpected.symm, .inl ⟨rfl, fun _ => ⟨now, hstart, .inr (.inl ?_)⟩⟩⟩
    rintro credential ⟨address, user, haddress, -⟩
    rw [herror] at haddress
    cases haddress
  rename_i address haddress
  obtain ⟨now', w, hnow, hrest⟩ := runs_bind.mp hrest
  obtain ⟨⟨hstart', -⟩, rfl⟩ := runs_now.mp hnow
  obtain ⟨outcome, x, hrun, hret⟩ := runs_bind.mp hrest
  obtain ⟨y, htransaction, rfl⟩ := runs_run.mp hrun
  have hwrong' : WrongPassword D email password
      { u with attemptRecords := records, openTransactions := i :: u.openTransactions } := hwrong
  obtain ⟨houtcome, haccounts, hcalls⟩ := failedTransaction_of_runs haddress hwrong' htransaction
  have hrecords : SameAccounts u t ∧ t.rateLimiterCalls = y.rateLimiterCalls ∧
      observe result = observe (.ok (.error (.authentication {}))) := by
    rcases houtcome with rfl | rfl <;> obtain ⟨rfl, rfl⟩ := runs_ret.mp hret
    · exact ⟨⟨haccounts.usersById, haccounts.passwordHash⟩, rfl, rfl⟩
    · exact ⟨⟨haccounts.usersById, haccounts.passwordHash⟩, rfl, rfl⟩
  refine ⟨hrecords.1, hrecords.2.2.trans hexpected.symm, ?_⟩
  rw [hrecords.2.1]
  rcases hcalls with ⟨hcalls, hreason⟩ | ⟨hhas, hcalls⟩
  · exact .inl ⟨hcalls, fun _ => ⟨now', hstart', .inr hreason⟩⟩
  · exact .inr ⟨hadmitted, gateAdmits_of_gateOpens (by simpa using hopened), hhas, hcalls⟩

end Walk

/-! ## Sequences of failed logins -/

section Sequences

variable {credential : Credential} {began : ℤ} {attempts : List LoginAttempt}
  {seen : List LoginObservation}

/-- Passwords stay wrong while the accounts are left alone. -/
theorem SameAccounts.wrongPassword {password : String} (h : SameAccounts s t)
    (hwrong : WrongPassword D email password s) : WrongPassword D email password t := by
  intro credential hcredential
  obtain ⟨credential', hcredential', hhash⟩ := h.symm.hasCredential hcredential
  rw [← hhash]
  exact hwrong credential' hcredential'

/-- Without a credential nothing is told: every attempt is answered like the first. -/
theorem seen_of_lacks (hlacks : LacksCredential D email s)
    (h : Attempts D i email began s attempts seen t) :
    seen = attempts.map fun _ => expected D email s.rateLimiterCalls := by
  induction h with
  | nil => rfl
  | cons hbegan hclock hruns _ ih =>
    have hfailed := failedLogin_of_runs hclock
      (fun credential hcredential => absurd hcredential (hlacks credential)) hruns
    have hcalls := hfailed.calls.resolve_right fun h => by
      obtain ⟨-, -, ⟨credential, hcredential⟩, -⟩ := h
      exact hlacks credential hcredential
    rw [ih (hfailed.accounts.lacksCredential hlacks), hcalls.1, hfailed.observed]
    rfl

/-- Failures that were counted add up. -/
theorem callsAfter_callsAfter (calls : RateLimitKey → List RateLimiterCall) (m n : ℕ) :
    callsAfter email (callsAfter email calls m) n = callsAfter email calls (m + n) := by
  simp [callsAfter]

theorem callsAfter_zero (calls : RateLimitKey → List RateLimiterCall) :
    callsAfter email calls 0 = calls := by
  simp [callsAfter]

variable (D email) in
/-- So many failures have been counted since the calls were these, and each could be. -/
structure Counted (calls : RateLimitKey → List RateLimiterCall) (failures : ℕ)
    (s : CredentialStore) : Prop where
  calls_eq : s.rateLimiterCalls = callsAfter email calls failures
  gate : ∀ fewer < failures, gateAdmits D email (callsAfter email calls fewer) = true
  admitted : 0 < failures → (loginLimit D email calls).allowed = true

/-- A failed login counts one failure or none. -/
theorem Counted.of_failedLogin {calls : RateLimitKey → List RateLimiterCall} {failures : ℕ}
    {start finish : ℤ} {result : AuthenticateWithPasswordResult}
    (h : Counted D email calls failures s)
    (hfailed : FailedLogin D email start finish s t result) :
    ∃ failures', Counted D email calls failures' t := by
  rcases hfailed.calls with ⟨hcalls, -⟩ | ⟨hadmitted, hgate, -, hcalls⟩
  · exact ⟨failures, hcalls.trans h.calls_eq, h.gate, h.admitted⟩
  · refine ⟨failures + 1, ?_, fun fewer hfewer => ?_, fun _ => ?_⟩
    · rw [hcalls, h.calls_eq, callsAfter_callsAfter]
    · rcases Nat.lt_succ_iff_lt_or_eq.mp hfewer with hlt | rfl
      · exact h.gate fewer hlt
      · rw [← h.calls_eq]
        exact hgate
    · rcases Nat.eq_zero_or_pos failures with rfl | hpos
      · rw [h.calls_eq, callsAfter_zero] at hadmitted
        exact hadmitted
      · exact h.admitted hpos

/-- Where failures are not told, every attempt is answered like the first. -/
theorem seen_of_counted {calls : RateLimitKey → List RateLimiterCall} {failures : ℕ} {hash : String}
    (hnot : ∀ failures s, Counted D email calls failures s →
      expected D email s.rateLimiterCalls = expected D email calls)
    (hcounted : Counted D email calls failures s)
    (hhash : ∀ credential, HasCredential D email s credential → credential.passwordHash = hash)
    (hwrong : ∀ attempt ∈ attempts, D.hasher.verify attempt.password hash = false)
    (h : Attempts D i email began s attempts seen t) :
    seen = attempts.map fun _ => expected D email calls := by
  induction h generalizing failures with
  | nil => rfl
  | cons hbegan hclock hruns _ ih =>
    have hfailed := failedLogin_of_runs hclock (fun credential hcredential => by
      rw [hhash credential hcredential]
      exact hwrong _ List.mem_cons_self) hruns
    obtain ⟨failures', hcounted'⟩ := hcounted.of_failedLogin hfailed
    have hhash' : ∀ credential, HasCredential D email _ credential →
        credential.passwordHash = hash := fun credential hcredential => by
      obtain ⟨credential', hcredential', heq⟩ := hfailed.accounts.symm.hasCredential hcredential
      rw [← heq, hhash credential' hcredential']
    rw [ih hcounted' hhash' fun attempt hattempt =>
        hwrong attempt (List.mem_cons_of_mem _ hattempt),
      hfailed.observed, hnot _ _ hcounted]
    rfl

/-- Attempts that can be made at one store can be made at every store. -/
theorem exists_attempts (s' : CredentialStore)
    (h : Attempts D i email began s attempts seen t) :
    ∃ seen' t', Attempts D i email began s' attempts seen' t' := by
  induction h generalizing s' with
  | nil => exact ⟨[], s', .nil _ s'⟩
  | @cons began s t u attempt rest observations result hbegan hclock hruns _ ih =>
    obtain ⟨result', v, hruns'⟩ := exists_runsWithin (D := D) (i := i) hclock
      (AuthenticateWithPassword.execute D ⟨email, attempt.password⟩) s'
    obtain ⟨seen', t', hrest⟩ := @ih v
    exact ⟨_, t', .cons hbegan hclock hruns' hrest⟩

variable (D email) in
/-- There is a moment from which on nothing is locked any more. -/
theorem exists_unlocked (s : CredentialStore) (credential : Credential) (began : ℤ) :
    ∃ start, began ≤ start ∧ ∀ now, start ≤ now → credential.isLockedAt now = false ∧
      gateOpens D s .login email now = gateAdmits D email s.rateLimiterCalls := by
  have hbound : ∀ lockedUntil : Option ℤ, ∃ bound, ∀ now, bound ≤ now →
      (lockedUntil.any fun time => decide (now < time)) = false := by
    intro lockedUntil
    cases lockedUntil with
    | none => exact ⟨0, fun now _ => rfl⟩
    | some time => exact ⟨time, fun now hnow => by simpa using hnow⟩
  obtain ⟨accountBound, haccount⟩ := hbound credential.lockedUntil
  obtain ⟨gateBound, hgate⟩ :=
    hbound (s.attemptRecords (BruteForcePolicy.key D.toLowerCase .login email)).lockedUntil
  refine ⟨max began (max accountBound gateBound), le_max_left _ _, fun now hnow => ?_⟩
  obtain ⟨-, hlocks⟩ := max_le_iff.mp hnow
  obtain ⟨haccountBound, hgateBound⟩ := max_le_iff.mp hlocks
  refine ⟨haccount now haccountBound, ?_⟩
  unfold gateOpens gateAdmits
  cases D.bruteForce with
  | none => rfl
  | some policy => simp [hgate now hgateBound]

/-- After a while an attempt can be made whose failure is counted, if the limiters admit it. -/
theorem exists_attempt {password : String} (hhas : HasCredential D email s credential)
    (hwrong : D.hasher.verify password credential.passwordHash = false) (began : ℤ) :
    ∃ start result t, began ≤ start ∧
      RunsWithin D start start i (AuthenticateWithPassword.execute D ⟨email, password⟩) s result t ∧
      FailedLogin D email start start s t result ∧
      ((loginLimit D email s.rateLimiterCalls).allowed = true →
        gateAdmits D email s.rateLimiterCalls = true →
        t.rateLimiterCalls = callsAfter email s.rateLimiterCalls 1) := by
  obtain ⟨start, hbegan, hunlocked⟩ := exists_unlocked D email s credential began
  obtain ⟨result, t, hruns⟩ := exists_runsWithin (D := D) (i := i) (le_refl start)
    (AuthenticateWithPassword.execute D ⟨email, password⟩) s
  have hfailed := failedLogin_of_runs le_rfl (fun credential' hcredential' => by
    rw [hcredential'.unique hhas]
    exact hwrong) hruns
  refine ⟨start, result, t, hbegan, hruns, hfailed, fun hadmitted hgate => ?_⟩
  rcases hfailed.calls with ⟨-, hreason⟩ | ⟨-, -, -, hcalls⟩
  · obtain ⟨now, hnow, hclosed | hlacks | ⟨credential', hcredential', hlocked⟩⟩ := hreason hadmitted
    · rw [(hunlocked now hnow).2, hgate] at hclosed
      cases hclosed
    · exact absurd hhas (hlacks credential)
    · rw [hcredential'.unique hhas, (hunlocked now hnow).1] at hlocked
      cases hlocked
  · exact hcalls

/-- As many failures as make the rate limiter refuse can be produced, and then it is seen to
refuse. -/
theorem exists_attempts_threw {failures : ℕ} {password : String}
    (hrefused : (loginLimit D email (callsAfter email s.rateLimiterCalls failures)).allowed = false)
    (hadmitted : ∀ fewer < failures,
      (loginLimit D email (callsAfter email s.rateLimiterCalls fewer)).allowed = true ∧
      gateAdmits D email (callsAfter email s.rateLimiterCalls fewer) = true)
    (hhas : HasCredential D email s credential)
    (hwrong : D.hasher.verify password credential.passwordHash = false) (began : ℤ) :
    ∃ attempts seen t error, Attempts D i email began s attempts seen t ∧
      (∀ attempt ∈ attempts, attempt.password = password) ∧
      LoginObservation.threw error ∈ seen := by
  induction failures generalizing s credential began with
  | zero =>
    obtain ⟨start, result, t, hbegan, hruns, hfailed, -⟩ :=
      exists_attempt (i := i) hhas hwrong began
    rw [callsAfter_zero] at hrefused
    have hobserved := hfailed.observed
    rw [expected, hrefused, if_neg Bool.false_ne_true] at hobserved
    refine ⟨[⟨password, start, start⟩], _, t, _, .cons hbegan le_rfl hruns (.nil _ t), by simp,
      List.mem_singleton.mpr hobserved.symm⟩
  | succ failures ih =>
    obtain ⟨start, result, u, hbegan, hruns, hfailed, hcounted⟩ :=
      exists_attempt (i := i) hhas hwrong began
    have hfirst := hadmitted 0 (Nat.succ_pos failures)
    rw [callsAfter_zero] at hfirst
    have hcalls := hcounted hfirst.1 hfirst.2
    have hshift : ∀ n, callsAfter email u.rateLimiterCalls n =
        callsAfter email s.rateLimiterCalls (n + 1) := by
      intro n
      rw [hcalls, callsAfter_callsAfter, Nat.add_comm]
    obtain ⟨credential', hhas', hhash'⟩ := hfailed.accounts.hasCredential hhas
    obtain ⟨attempts, seen, t, error, hattempts, hpasswords, hmem⟩ := ih
      (by rw [hshift]; exact hrefused)
      (fun fewer hfewer => by rw [hshift]; exact hadmitted (fewer + 1) (by omega))
      hhas' (hhash' ▸ hwrong) start
    refine ⟨⟨password, start, start⟩ :: attempts, _, t, error, .cons hbegan le_rfl hruns hattempts,
      ?_, List.mem_cons_of_mem _ hmem⟩
    intro attempt hattempt
    rcases List.mem_cons.mp hattempt with rfl | hattempt
    · rfl
    · exact hpasswords attempt hattempt

end Sequences

/-! ## Whether the failures are told -/

section

variable {credential : Credential}

/-- Where no number of failures makes the limiter refuse, what is seen stays as at first. -/
theorem expected_of_not_tellsFailures {password : String}
    (hwrong : D.hasher.verify password credential.passwordHash = false)
    (hnot : ¬TellsFailures D email credential s) {failures : ℕ}
    (h : Counted D email s.rateLimiterCalls failures t) :
    expected D email t.rateLimiterCalls = expected D email s.rateLimiterCalls := by
  rw [h.calls_eq]
  rcases Nat.eq_zero_or_pos failures with rfl | hpos
  · rw [callsAfter_zero]
  · have hstart := h.admitted hpos
    have hstill : (loginLimit D email (callsAfter email s.rateLimiterCalls failures)).allowed
        = true := by
      by_contra hrefused
      exact hnot ⟨hstart, ⟨password, hwrong⟩, failures, by simpa using hrefused, h.gate⟩
    rw [expected, expected, if_pos hstart, if_pos hstill]

/-- Where enough failures make the limiter refuse, they are told. -/
theorem not_seenAlike (hhas : HasCredential D email s credential)
    (hlacks : LacksCredential D email t) (hcalls : t.rateLimiterCalls = s.rateLimiterCalls)
    (h : TellsFailures D email credential s) : ¬SeenAlike D i email credential s t := by
  obtain ⟨hadmitted, ⟨password, hwrong⟩, hrefused⟩ := h
  -- the least number of failures that makes the limiter refuse
  obtain ⟨hleast, hgate⟩ := Nat.find_spec hrefused
  have hfewer : ∀ fewer < Nat.find hrefused,
      (loginLimit D email (callsAfter email s.rateLimiterCalls fewer)).allowed = true ∧
        gateAdmits D email (callsAfter email s.rateLimiterCalls fewer) = true := by
    intro fewer hlt
    refine ⟨?_, hgate fewer hlt⟩
    by_contra hno
    exact Nat.find_min hrefused hlt
      ⟨by simpa using hno, fun fewer' hlt' => hgate fewer' (hlt'.trans hlt)⟩
  obtain ⟨attempts, seen, s', error, hattempts, hpasswords, hthrew⟩ :=
    exists_attempts_threw (i := i) hleast hfewer hhas hwrong 0
  obtain ⟨seen', t', hattempts'⟩ := exists_attempts t hattempts
  intro halike
  have heq := halike 0 attempts seen seen' s' t'
    (fun attempt hattempt => by rw [hpasswords attempt hattempt, hwrong]) hattempts hattempts'
  rw [heq, seen_of_lacks hlacks hattempts'] at hthrew
  obtain ⟨-, -, hexpected⟩ := List.mem_map.mp hthrew
  rw [expected, hcalls, if_pos hadmitted] at hexpected
  cases hexpected

end

/-- The store of the sample deployment without the sample account. -/
def sampleStranger : CredentialStore := .fresh .empty .empty .empty

/-- The sample deployment with a limiter that refuses after three failures. -/
def limitedDeployment : CredentialDeployment :=
  { sampleAccountDeployment with
    rateLimiter :=
      ⟨fun _ calls => ⟨decide (calls.length < 3), 3 - calls.length, 1767232800000, 3⟩⟩ }

theorem hasCredential_sample :
    HasCredential sampleAccountDeployment "ada@example.com" sampleAccount sampleCredential :=
  ⟨sampleOwner.email, sampleOwner, by decide +kernel, by decide +kernel, by decide +kernel⟩

theorem lacksCredential_sample :
    LacksCredential sampleAccountDeployment "ada@example.com" sampleStranger := by
  rintro credential ⟨address, user, -, huser, -⟩
  cases huser

end Verixa.Credentials
