import Verixa.Credentials.CredentialSafety

/-!
# The lockout counts failed logins

A login computes the new failure count from the credential it has looked up, compares the password,
and saves the credential as a whole.  Logins that overlap overwrite the counts of each other, and
each of them compares a password before any is counted (`failure_uncounted`).  In runs in which a
login looks the account's credential up only when no other login has looked it up and not yet
saved it (`OneAtATime`), every failed login is counted, and the account is locked before more
passwords were compared than the policy tolerates (`failures_counted`).
-/

namespace Verixa.Credentials

open Concurrency CredentialStore

/-- The command is a login whose password does not verify the hash. -/
def guessesWrong (D : CredentialDeployment) (hash : String) : CredentialCommand → Bool
  | .authenticateWithPassword command => !D.hasher.verify command.password hash
  | _ => false

/-- A login has found the credential of the user. -/
def isFinding (userId : String) : CredentialDeed → Bool
  | .foundCredential .authenticateWithPassword found => decide (found.userId = userId)
  | _ => false

/-- A login has saved the credential of the user. -/
def isCounting (userId : String) : CredentialDeed → Bool
  | .wroteCredential .authenticateWithPassword _ after => decide (after.userId = userId)
  | _ => false

/-- Thread `i` has looked the user's credential up and has not saved it yet. -/
def isPending (userId : String) (s : CredentialStore) (i : ℕ) : Bool :=
  (s.deedsOf i).any (isFinding userId) && !(s.deedsOf i).any (isCounting userId)

/-- A login looks the credential of the user up only when no other login stands between its own
look and its save. -/
def oneAtATime (userId : String) (s : CredentialStore) : CredentialRequest → Bool
  | .findCredentialByUserId .authenticateWithPassword id =>
    decide (id ≠ userId) || s.journal.all fun entry => !isPending userId s entry.1
  | _ => true

/-- `oneAtATime`, as a condition on the calls of a run. -/
def OneAtATime (userId : String) (_ : ℕ) (s : CredentialStore) (q : CredentialRequest)
    (_ : CredentialInput) : Prop :=
  oneAtATime userId s q = true

instance (userId : String) (i : ℕ) (s : CredentialStore) (q : CredentialRequest)
    (ω : CredentialInput) : Decidable (OneAtATime userId i s q ω) :=
  inferInstanceAs (Decidable (_ = true))

/-- Thread `i` has completed a login on the account of the user. -/
def CompletedOn (userId : String) (P : CredentialPool) (i : ℕ) : Prop :=
  (∃ outcome, P.returned i = some outcome) ∧
    (P.store.deedsOf i).any (isFinding userId) = true

/-- The deed stores the account of the user as locked. -/
def isLocking (userId : String) : CredentialDeed → Bool
  | .wroteCredential _ _ after =>
    decide (after.userId = userId) && after.isLockedAt after.updatedAt
  | _ => false

/-- The account of the user has been locked. -/
def HasLocked (userId : String) (s : CredentialStore) : Prop :=
  s.journal.any (fun entry => isLocking userId entry.2) = true

/-- The entry is a comparison that a login has made with the hash of the user's account. -/
def isGuess (userId : String) (s : CredentialStore) : ℕ × CredentialDeed → Bool
  | (i, .compared _ hash) => (s.deedsOf i).any fun
    | .foundCredential .authenticateWithPassword found =>
      decide (found.userId = userId) && decide (found.passwordHash = hash)
    | _ => false
  | _ => false

/-- How many passwords logins have compared with the hash of the user's account. -/
def guesses (userId : String) (s : CredentialStore) : ℕ :=
  s.journal.countP (isGuess userId s)

/-- Of the completed logins on the account each is counted, and before the account is locked no
more passwords are compared with its hash than the policy tolerates. -/
structure CountsFailures (D : CredentialDeployment) (userId : String) (start : Credential)
    (P : CredentialPool) : Prop where
  counted : ∀ logins : Finset ℕ, (∀ i ∈ logins, CompletedOn userId P i) →
    ∃ stored, P.store.credentialsByUserId.get? userId = some stored ∧
      start.failedAttempts + logins.card ≤ stored.failedAttempts
  tolerated : ¬ HasLocked userId P.store → guesses userId P.store ≤ D.lockoutPolicy.threshold

/-! ## The calls of logins with a wrong password -/

variable {D : CredentialDeployment} {userId : String} {start : Credential} {i : ℕ}
  {s u : CredentialStore}

theorem Quiet.calls {α : Type} {property : α → Prop} {kind : CredentialRequest → Prop}
    {p : CredentialProgram α} (hp : Quiet property p) (hplain : ∀ q, Plain q → kind q) :
    p.Calls kind := by
  induction hp with
  | ret h => exact .ret _
  | call hq _ ih => exact .call (hplain _ hq) ih

/-- A login looks up and saves credentials as a login, and compares the presented password
only. -/
def LoginCalls (password : String) : CredentialRequest → Prop
  | .verify plaintext _ => plaintext = password
  | .findCredentialByUserId useCase _ => useCase = .authenticateWithPassword
  | .saveCredential useCase _ => useCase = .authenticateWithPassword
  | .findResetTokenByHash _ | .saveResetToken _ => False
  | _ => True

theorem loginCalls_of_plain {password : String} {q : CredentialRequest} (h : Plain q) :
    LoginCalls password q := by
  cases q <;> trivial

theorem calls_verifyCredential (rateLimitKey : RateLimitKey)
    (command : AuthenticateWithPasswordCommand) (user : User) (credential : Credential) (now : ℤ) :
    (AuthenticateWithPassword.verifyCredential D rateLimitKey command user credential now).Calls
      (LoginCalls command.password) := by
  unfold AuthenticateWithPassword.verifyCredential
  split
  · exact .call trivial fun _ => .call rfl fun _ => .ret _
  · refine .call rfl fun isMatch => ?_
    change Program.Calls _ (if _ then _ else _)
    split
    · exact .call rfl fun _ => .call trivial fun _ => .ret _
    split
    · exact .ret _
    split
    · exact .ret _
    · exact .call rfl fun _ => .ret _

theorem calls_loginTransaction (rateLimitKey : RateLimitKey)
    (command : AuthenticateWithPasswordCommand) (email : Email) (now : ℤ) :
    (AuthenticateWithPassword.transaction D rateLimitKey command email now).Calls
      (LoginCalls command.password) := by
  have hfail : (do
      countFailure D .login command.email
      CredentialCalls.burnTime command.password
      return .failed : CredentialProgram AuthenticateWithPassword.Outcome).Calls
        (LoginCalls command.password) :=
    ((quiet_countFailure D .login command.email).calls fun _ => loginCalls_of_plain).bind
      fun _ => .call trivial fun _ => .ret _
  refine .call trivial fun found => ?_
  cases found with
  | none => exact hfail
  | some user =>
    refine .call rfl fun found => ?_
    cases found with
    | none => exact hfail
    | some credential => exact calls_verifyCredential rateLimitKey command user credential now

/-- A transaction makes the calls of its work. -/
theorem calls_run {α : Type} {password : String} {work : CredentialProgram α}
    (h : work.Calls (LoginCalls password)) :
    (CredentialCalls.run work).Calls (LoginCalls password) :=
  .call trivial fun _ => h.bind fun _ => .call trivial fun _ => .ret _

theorem calls_upgradeHashIfStale (credential : Credential) (password : String) :
    (AuthenticateWithPassword.upgradeHashIfStale D credential password).Calls
      (LoginCalls password) := by
  unfold AuthenticateWithPassword.upgradeHashIfStale
  split
  · refine .call trivial fun answer => ?_
    cases answer with
    | none => exact .ret _
    | some newHash =>
      refine .call trivial fun now => ?_
      have hsave : (CredentialCalls.saveCredential .authenticateWithPassword
          (credential.withPasswordHash newHash now)).Calls (LoginCalls password) :=
        .perform rfl
      exact (calls_run hsave).bind fun _ => .ret _
  · exact .ret _

theorem calls_finishLogin (rateLimitKey : RateLimitKey) (command : AuthenticateWithPasswordCommand)
    (user : User) (credential : Credential) :
    (AuthenticateWithPassword.finishLogin D rateLimitKey command user credential).Calls
      (LoginCalls command.password) := by
  refine ((quiet_countSuccess D .login command.email).calls fun _ => loginCalls_of_plain).bind
    fun _ => ?_
  refine .call trivial fun _ => ?_
  refine (calls_upgradeHashIfStale credential command.password).bind fun rehashed => ?_
  exact ((quiet_conclude D user rehashed).calls fun _ => loginCalls_of_plain).bind
    fun success => .ret _

/-- The calls of a login. -/
theorem calls_authenticateWithPassword (command : AuthenticateWithPasswordCommand) :
    (AuthenticateWithPassword.execute D command).Calls (LoginCalls command.password) := by
  have hrefuse : (do
      CredentialCalls.burnTime command.password
      return .ok (.error (.authentication {})) :
        CredentialProgram AuthenticateWithPasswordResult).Calls (LoginCalls command.password) :=
    .call trivial fun _ => .ret _
  unfold AuthenticateWithPassword.execute
  refine Program.Calls.bind (.perform trivial) fun (limitResult : RateLimitResult) => ?_
  split
  · exact .ret _
  refine ((quiet_mayProceed D .login command.email).calls fun _ => loginCalls_of_plain).bind
    fun admitted => ?_
  split
  · exact hrefuse
  split
  · exact hrefuse
  · refine .call trivial fun now => ?_
    refine (calls_run (calls_loginTransaction _ command _ now)).bind fun outcome => ?_
    cases outcome with
    | locked => exact .ret _
    | failed => exact .ret _
    | ok user credential => exact calls_finishLogin _ command user credential

/-! ## The law of counting -/

/-- How often logins have saved the credential of the user. -/
def counts (userId : String) (s : CredentialStore) : ℕ :=
  s.journal.countP fun entry => isCounting userId entry.2

variable (D userId start) in
/-- The hash of the account is the one at the start, which no compared password verifies; every
save is counted; at most one login stands between its look and its save, and what it has found is
still stored; and at most its comparison is not yet counted. -/
structure Counting (s : CredentialStore) : Prop where
  stored : ∃ stored, s.credentialsByUserId.get? userId = some stored ∧
    stored.passwordHash = start.passwordHash ∧
    stored.failedAttempts = start.failedAttempts + counts userId s
  found : ∀ i found, .foundCredential .authenticateWithPassword found ∈ s.deedsOf i →
    found.userId = userId → found.passwordHash = start.passwordHash ∧
      (isPending userId s i = true → s.credentialsByUserId.get? userId = some found)
  wrong : ∀ i password, .compared password start.passwordHash ∈ s.deedsOf i →
    D.hasher.verify password start.passwordHash = false
  onePending : ∀ i j, isPending userId s i = true → isPending userId s j = true → i = j
  guesses_le : guesses userId s ≤ counts userId s + 1
  guesses_le_of_pending : (∀ i, isPending userId s i = true →
    ∀ password hash, .compared password hash ∉ s.deedsOf i) → guesses userId s ≤ counts userId s
  unlocked : ¬ HasLocked userId s → counts userId s = 0 ∨
    start.failedAttempts + counts userId s < D.lockoutPolicy.threshold

variable (D userId start) in
/-- The law of counting. -/
def counting : CredentialLaw where
  inv := Counting D userId start

/-- The deeds are a matter of the journal. -/
theorem deedsOf_of_untouched (h : Untouched s u) (j : ℕ) : u.deedsOf j = s.deedsOf j := by
  rw [deedsOf, h.journal, deedsOf]

theorem Counting.of_untouched (h : Counting D userId start s) (hsame : Untouched s u) :
    Counting D userId start u := by
  have hdeeds := deedsOf_of_untouched hsame
  have hpending : isPending userId u = isPending userId s := by
    funext j
    rw [isPending, hdeeds, isPending]
  have hguess : isGuess userId u = isGuess userId s := by
    funext ⟨j, deed⟩
    cases deed <;> simp only [isGuess, hdeeds]
  have hguesses : guesses userId u = guesses userId s := by
    rw [guesses, hguess, hsame.journal, guesses]
  have hcounts : counts userId u = counts userId s := by rw [counts, hsame.journal, counts]
  constructor
  · simpa only [hsame.credentialsByUserId, hcounts] using h.stored
  · simpa only [hsame.credentialsByUserId, hdeeds, hpending] using h.found
  · simpa only [hdeeds] using h.wrong
  · simpa only [hpending] using h.onePending
  · simpa only [hguesses, hcounts] using h.guesses_le
  · simpa only [hguesses, hcounts, hpending, hdeeds] using h.guesses_le_of_pending
  · simpa only [HasLocked, hsame.journal, hcounts] using h.unlocked

section Deed

variable {deed : CredentialDeed} (hjournal : u.journal = (i, deed) :: s.journal)

include hjournal

/-- A deed that a test does not see changes none of its answers. -/
theorem any_deedsOf_of_deed {test : CredentialDeed → Bool} (htest : test deed = false) (j : ℕ) :
    (u.deedsOf j).any test = (s.deedsOf j).any test := by
  by_cases hj : j = i
  · subst hj
    rw [deedsOf_of_journal hjournal, List.any_cons, htest, Bool.false_or]
  · rw [deedsOf_of_journal_of_ne hjournal hj]

theorem isPending_of_deed (hfinding : isFinding userId deed = false)
    (hcounting : isCounting userId deed = false) (j : ℕ) :
    isPending userId u j = isPending userId s j := by
  rw [isPending, any_deedsOf_of_deed hjournal hfinding, any_deedsOf_of_deed hjournal hcounting,
    isPending]

variable (userId) in
theorem counts_of_deed :
    counts userId u = counts userId s + if isCounting userId deed then 1 else 0 := by
  rw [counts, hjournal, List.countP_cons, counts]

variable (userId) in
/-- A deed that finds no credential for a login. -/
theorem guesses_of_deed
    (hdeed : ∀ found, deed ≠ .foundCredential .authenticateWithPassword found) :
    guesses userId u = guesses userId s + if isGuess userId s (i, deed) then 1 else 0 := by
  have hguess : isGuess userId u = isGuess userId s := by
    funext ⟨j, other⟩
    cases other with
    | compared plaintext hash =>
      refine any_deedsOf_of_deed hjournal ?_ j
      split
      · exact absurd rfl (hdeed _)
      · rfl
    | _ => rfl
  rw [guesses, hguess, hjournal, List.countP_cons, guesses]

/-- Finding a credential, when nothing was done before, turns no comparison into a guess. -/
theorem guesses_of_found {found : Credential}
    (hdeed : deed = .foundCredential .authenticateWithPassword found) (hidle : s.deedsOf i = []) :
    guesses userId u = guesses userId s := by
  rw [guesses, hjournal, List.countP_cons, guesses, hdeed]
  have hcount : s.journal.countP (isGuess userId u) = s.journal.countP (isGuess userId s) := by
    refine List.countP_congr fun ⟨j, other⟩ hmem => ?_
    have hj : j ≠ i := by
      rintro rfl
      have hdone := mem_deedsOf.mpr hmem
      rw [hidle] at hdone
      cases hdone
    cases other with
    | compared plaintext hash =>
      rw [isGuess, deedsOf_of_journal_of_ne hjournal hj, isGuess]
    | _ => rfl
  rw [hcount]
  rfl

end Deed

/-- A login that is still to save what it has found is among the threads of the journal. -/
theorem exists_mem_of_isPending {j : ℕ} (h : isPending userId s j = true) :
    ∃ found, .foundCredential .authenticateWithPassword found ∈ s.deedsOf j ∧
      found.userId = userId := by
  obtain ⟨hfinding, -⟩ := Bool.and_eq_true_iff.mp h
  obtain ⟨deed, hdeed, hfinds⟩ := List.any_eq_true.mp hfinding
  unfold isFinding at hfinds
  split at hfinds
  · exact ⟨_, hdeed, by simpa using hfinds⟩
  · cases hfinds

/-- A deed that locks nobody leaves an account that was not locked unlocked. -/
theorem hasLocked_of_deed {deed : CredentialDeed} (hjournal : u.journal = (i, deed) :: s.journal)
    (h : ¬ HasLocked userId u) : ¬ HasLocked userId s := by
  rw [HasLocked, hjournal, List.any_cons, Bool.or_eq_true, not_or] at h
  exact h.2

/-- A comparison: it is a guess of the login that stands between its look and its save. -/
theorem Counting.compared (h : Counting D userId start s) {password hash : String}
    (hjournal : u.journal = (i, .compared password hash) :: s.journal)
    (hcredentials : u.credentialsByUserId = s.credentialsByUserId)
    (hjust : (∀ found, .foundCredential .authenticateWithPassword found ∉ s.deedsOf i) ∨
      ∃ found, s.deedsOf i = [.foundCredential .authenticateWithPassword found] ∧
        hash = found.passwordHash)
    (hwrong : D.hasher.verify password start.passwordHash = false) :
    Counting D userId start u := by
  have hpending : ∀ j, isPending userId u j = isPending userId s j :=
    isPending_of_deed hjournal rfl rfl
  have hcounts : counts userId u = counts userId s := counts_of_deed userId hjournal
  have hguesses := guesses_of_deed userId hjournal (by simp)
  -- a guess is made by the only login that stands between its look and its save
  have hguess : isGuess userId s (i, .compared password hash) = true →
      isPending userId s i = true ∧ guesses userId s ≤ counts userId s := by
    intro hguess
    obtain ⟨deed, hdeed, hfinds⟩ := List.any_eq_true.mp hguess
    rcases hjust with hnone | ⟨found, hdeeds, -⟩
    · split at hfinds
      · exact absurd hdeed (hnone _)
      · cases hfinds
    · rw [hdeeds, List.mem_singleton] at hdeed
      subst hdeed
      have huser : found.userId = userId := by simpa using (Bool.and_eq_true_iff.mp hfinds).1
      have hi : isPending userId s i = true := by
        simp [isPending, hdeeds, isFinding, isCounting, huser]
      refine ⟨hi, h.guesses_le_of_pending fun j hj => ?_⟩
      obtain rfl : j = i := h.onePending j i hj hi
      simp [hdeeds]
  refine ⟨?_, fun j found hfound huser => ?_, fun j other hother => ?_, fun j k hj hk => ?_, ?_,
    fun hnone => ?_, fun hlocked => ?_⟩
  · simpa only [hcredentials, hcounts] using h.stored
  · have hold : .foundCredential .authenticateWithPassword found ∈ s.deedsOf j := by
      rw [mem_deedsOf, hjournal] at hfound
      simpa [mem_deedsOf] using hfound
    rw [hcredentials, hpending]
    exact h.found j found hold huser
  · rw [mem_deedsOf, hjournal] at hother
    rcases List.mem_cons.mp hother with heq | hold
    · cases heq
      exact hwrong
    · exact h.wrong j other (mem_deedsOf.mpr hold)
  · rw [hpending] at hj hk
    exact h.onePending j k hj hk
  · rw [hguesses, hcounts]
    split
    · rename_i hisGuess
      exact Nat.add_le_add_right (hguess hisGuess).2 1
    · exact h.guesses_le
  · rw [hguesses, hcounts]
    split
    · rename_i hisGuess
      have hi := (hguess hisGuess).1
      rw [← hpending] at hi
      exact absurd (mem_deedsOf.mpr (hjournal ▸ List.mem_cons_self)) (hnone i hi password hash)
    · refine h.guesses_le_of_pending fun j hj other hash' hold => ?_
      rw [← hpending] at hj
      refine hnone j hj other hash' ?_
      rw [mem_deedsOf, hjournal]
      exact List.mem_cons_of_mem _ (mem_deedsOf.mp hold)
  · rw [hcounts]
    exact h.unlocked (hasLocked_of_deed hjournal hlocked)

/-- A look of a login that has done nothing before; it finds what is stored, and if that is the
account, no other login stands between its look and its save. -/
theorem Counting.found_of_deed (h : Counting D userId start s) {found : Credential}
    (hjournal : u.journal = (i, .foundCredential .authenticateWithPassword found) :: s.journal)
    (hcredentials : u.credentialsByUserId = s.credentialsByUserId)
    (hstored : s.credentialsByUserId.get? found.userId = some found) (hidle : s.deedsOf i = [])
    (hfree : found.userId = userId → ∀ j, isPending userId s j = false) :
    Counting D userId start u := by
  have hcounts : counts userId u = counts userId s := counts_of_deed userId hjournal
  have hguesses : guesses userId u = guesses userId s := guesses_of_found hjournal rfl hidle
  have hdeeds : u.deedsOf i = [.foundCredential .authenticateWithPassword found] := by
    rw [deedsOf_of_journal hjournal, hidle]
  have hothers : ∀ j, j ≠ i → isPending userId u j = isPending userId s j := fun j hj => by
    rw [isPending, deedsOf_of_journal_of_ne hjournal hj, isPending]
  have hself : isPending userId s i = false := by simp [isPending, hidle]
  -- after the look this login is the only one, or it has found another account
  have hnew : ∀ j, isPending userId u j = true →
      (j = i ∧ found.userId = userId) ∨ (j ≠ i ∧ isPending userId s j = true) := by
    intro j hj
    by_cases hji : j = i
    · subst hji
      left
      refine ⟨rfl, ?_⟩
      simpa [isPending, hdeeds, isFinding, isCounting] using hj
    · exact .inr ⟨hji, hothers j hji ▸ hj⟩
  refine ⟨?_, fun j other hother huser => ?_, fun j password hcompared => ?_,
    fun j k hj hk => ?_, ?_, fun hnone => ?_, fun hlocked => ?_⟩
  · simpa only [hcredentials, hcounts] using h.stored
  · rw [hcredentials]
    by_cases hj : j = i
    · subst hj
      rw [hdeeds, List.mem_singleton] at hother
      cases hother
      obtain ⟨stored, hget, hhash, -⟩ := h.stored
      rw [huser] at hstored
      obtain rfl : found = stored := Option.some.inj (hstored.symm.trans hget)
      exact ⟨hhash, fun _ => hget⟩
    · rw [deedsOf_of_journal_of_ne hjournal hj] at hother
      rw [hothers j hj]
      exact h.found j other hother huser
  · refine h.wrong j password ?_
    rw [mem_deedsOf, hjournal] at hcompared
    simpa [mem_deedsOf] using hcompared
  · rcases hnew j hj with ⟨rfl, huser⟩ | ⟨hji, hj'⟩ <;>
      rcases hnew k hk with ⟨rfl, huser'⟩ | ⟨hki, hk'⟩
    · rfl
    · rw [hfree huser k] at hk'
      cases hk'
    · rw [hfree huser' j] at hj'
      cases hj'
    · exact h.onePending j k hj' hk'
  · rw [hguesses, hcounts]
    exact h.guesses_le
  · rw [hguesses, hcounts]
    refine h.guesses_le_of_pending fun j hj => ?_
    have hji : j ≠ i := by
      rintro rfl
      rw [hself] at hj
      cases hj
    rw [← deedsOf_of_journal_of_ne hjournal hji]
    exact hnone j (hothers j hji ▸ hj)
  · rw [hcounts]
    exact h.unlocked (hasLocked_of_deed hjournal hlocked)

/-- Saving the credential of another account. -/
theorem Counting.saved_of_ne (h : Counting D userId start s) {credential : Credential}
    (huser : credential.userId ≠ userId) :
    Counting D userId start (s.saveCredential i .authenticateWithPassword credential) := by
  have hjournal : (s.saveCredential i .authenticateWithPassword credential).journal =
      (i, _) :: s.journal := rfl
  have hcounting : isCounting userId (.wroteCredential .authenticateWithPassword
      (s.credentialsByUserId.get? credential.userId) credential) = false := by
    simp [isCounting, huser]
  have hpending : ∀ j, isPending userId (s.saveCredential i .authenticateWithPassword credential)
      j = isPending userId s j := isPending_of_deed hjournal rfl hcounting
  have hcounts := counts_of_deed userId hjournal
  rw [if_neg (by simp [hcounting]), Nat.add_zero] at hcounts
  have hguesses := guesses_of_deed userId hjournal (by simp)
  rw [if_neg (by simp [isGuess]), Nat.add_zero] at hguesses
  have hget : (s.saveCredential i .authenticateWithPassword
      credential).credentialsByUserId.get? userId = s.credentialsByUserId.get? userId :=
    KeyedMap.get?_put_of_ne _ huser
  have hmem : ∀ j deed, (∀ before after, deed ≠ .wroteCredential .authenticateWithPassword
      before after) → deed ∈ (s.saveCredential i .authenticateWithPassword credential).deedsOf j →
      deed ∈ s.deedsOf j := by
    intro j deed hdeed hj
    rw [mem_deedsOf, hjournal] at hj
    refine mem_deedsOf.mpr ((List.mem_cons.mp hj).resolve_left fun heq => ?_)
    exact hdeed _ _ (congrArg Prod.snd heq)
  refine ⟨?_, fun j found hfound huser' => ?_, fun j password hcompared => ?_,
    fun j k hj hk => ?_, ?_, fun hnone => ?_, fun hlocked => ?_⟩
  · rw [hget, hcounts]
    exact h.stored
  · rw [hget, hpending]
    exact h.found j found (hmem j _ (by simp) hfound) huser'
  · exact h.wrong j password (hmem j _ (by simp) hcompared)
  · rw [hpending] at hj hk
    exact h.onePending j k hj hk
  · rw [hguesses, hcounts]
    exact h.guesses_le
  · rw [hguesses, hcounts]
    refine h.guesses_le_of_pending fun j hj password hash hold => ?_
    rw [← hpending] at hj
    refine hnone j hj password hash ?_
    rw [mem_deedsOf, hjournal]
    exact List.mem_cons_of_mem _ (mem_deedsOf.mp hold)
  · rw [hcounts]
    exact h.unlocked (hasLocked_of_deed hjournal hlocked)

/-- The durations of the policy last for some time. -/
structure Lasting (policy : LockoutPolicy) : Prop where
  base : 0 < policy.baseDurationMs
  factor : 0 < policy.backoffFactor
  max : 0 < policy.maxDurationMs

/-- Saving a failed attempt on the account counts it. -/
theorem Counting.saved (h : Counting D userId start s) (hlasting : Lasting D.lockoutPolicy)
    {found : Credential} {now : ℤ}
    (hfound : .foundCredential .authenticateWithPassword found ∈ s.deedsOf i)
    (hfirst : ∀ before after,
      .wroteCredential .authenticateWithPassword before after ∉ s.deedsOf i)
    (huser : found.userId = userId) :
    Counting D userId start (s.saveCredential i .authenticateWithPassword
      (found.recordFailedAttempt D.lockoutPolicy now)) := by
  generalize hsaved : found.recordFailedAttempt D.lockoutPolicy now = saved
  have hsavedUser : saved.userId = userId := by rw [← hsaved]; exact huser
  have hjournal : (s.saveCredential i .authenticateWithPassword saved).journal =
      (i, _) :: s.journal := rfl
  -- the login stands between its look and its save, so what it has found is still stored
  have hi : isPending userId s i = true := by
    have hnone : (s.deedsOf i).any (isCounting userId) = false := by
      rw [List.any_eq_false]
      intro deed hdeed
      unfold isCounting
      split
      · exact absurd hdeed (hfirst _ _)
      · simp
    have hsome : (s.deedsOf i).any (isFinding userId) = true :=
      List.any_eq_true.mpr ⟨_, hfound, by simp [isFinding, huser]⟩
    rw [isPending, hsome, hnone]
    rfl
  obtain ⟨hhash, hstill⟩ := h.found i found hfound huser
  obtain ⟨stored, hget, -, hcount⟩ := h.stored
  obtain rfl : found = stored := Option.some.inj ((hstill hi).symm.trans hget)
  have hcounting : isCounting userId (.wroteCredential .authenticateWithPassword
      (s.credentialsByUserId.get? saved.userId) saved) = true := by
    simp [isCounting, hsavedUser]
  have hcounts := counts_of_deed userId hjournal
  rw [if_pos hcounting] at hcounts
  have hguesses := guesses_of_deed userId hjournal (by simp)
  rw [if_neg (by simp [isGuess]), Nat.add_zero] at hguesses
  have hpending : ∀ j, isPending userId (s.saveCredential i .authenticateWithPassword saved) j =
      false := by
    intro j
    by_cases hj : j = i
    · subst hj
      have hcounted : ((s.saveCredential j .authenticateWithPassword saved).deedsOf j).any
          (isCounting userId) = true := by
        rw [deedsOf_of_journal hjournal, List.any_cons, hcounting, Bool.true_or]
      rw [isPending, hcounted, Bool.not_true, Bool.and_false]
    · rw [isPending, deedsOf_of_journal_of_ne hjournal hj, ← isPending]
      rw [Bool.eq_false_iff]
      exact fun hother => hj (h.onePending j i hother hi)
  refine ⟨?_, fun j other hother huser' => ?_, fun j password hcompared => ?_,
    fun j k hj _ => ?_, ?_, fun _ => ?_, fun hlocked => .inr ?_⟩
  · refine ⟨saved, ?_, ?_, ?_⟩
    · rw [← hsavedUser]
      exact KeyedMap.get?_put_self _ _
    · rw [← hsaved]
      exact hhash
    · rw [hcounts, ← hsaved, Credential.failedAttempts_recordFailedAttempt, hcount, Nat.add_assoc]
  · refine ⟨(h.found j other ?_ huser').1, fun hj => ?_⟩
    · rw [mem_deedsOf, hjournal] at hother
      simpa [mem_deedsOf] using hother
    · rw [hpending] at hj
      cases hj
  · refine h.wrong j password ?_
    rw [mem_deedsOf, hjournal] at hcompared
    simpa [mem_deedsOf] using hcompared
  · rw [hpending] at hj
    cases hj
  · rw [hguesses, hcounts]
    exact Nat.le_succ_of_le h.guesses_le
  · rw [hguesses, hcounts]
    exact h.guesses_le
  · rw [hcounts, ← Nat.add_assoc, ← hcount]
    by_contra hreached
    refine hlocked ?_
    have hlocks := found.isLockedAt_recordFailedAttempt D.lockoutPolicy now hlasting.base
      hlasting.factor hlasting.max (not_lt.mp hreached)
    rw [HasLocked, hjournal, List.any_cons]
    simp [isLocking, ← hsaved, huser, hlocks]

variable (D userId start) in
/-- A call of a login with a wrong password, at a time when it may look the account up. -/
def GuessesOneAtATime (i : ℕ) (s : CredentialStore) (q : CredentialRequest)
    (ω : CredentialInput) : Prop :=
  (∃ password, D.hasher.verify password start.passwordHash = false ∧ LoginCalls password q) ∧
    OneAtATime userId i s q ω

/-- When the account may be looked up, no login stands between its look and its save. -/
theorem isPending_of_oneAtATime
    (h : oneAtATime userId s (.findCredentialByUserId .authenticateWithPassword userId) = true)
    (j : ℕ) : isPending userId s j = false := by
  by_contra hpending
  have hpending' : isPending userId s j = true := by simpa using hpending
  obtain ⟨found, hfound, -⟩ := exists_mem_of_isPending hpending'
  have hall : ∀ entry ∈ s.journal, isPending userId s entry.1 = false := by
    simpa [oneAtATime] using h
  exact hpending (hall _ (mem_deedsOf.mp hfound))

/-- Calls of logins with wrong passwords, of which at most one stands between its look and its
save, keep the law. -/
theorem keptBy_counting (hlasting : Lasting D.lockoutPolicy) :
    KeptBy D (counting D userId start) (GuessesOneAtATime D userId start) := by
  rintro i s q ω r u hinv hjust ⟨⟨password, hwrong, hcalls⟩, hone⟩ hserve
  refine ⟨?_, fun hisolated => hisolated.elim⟩
  have hcount : Counting D userId start s := hinv
  cases effect_of_serve hserve with
  | untouched _ huntouched => exact hcount.of_untouched huntouched
  | verify plaintext hash =>
    have hsame : plaintext = password := hcalls
    exact hcount.compared rfl rfl hjust (hsame ▸ hwrong)
  | @foundCredential useCase id found hfound =>
    obtain rfl : useCase = .authenticateWithPassword := hcalls
    obtain rfl : found.userId = id := KeyedMap.key_of_get? hfound
    refine hcount.found_of_deed rfl rfl hfound hjust fun huser => ?_
    subst huser
    exact isPending_of_oneAtATime hone
  | foundResetToken _ => exact hcalls.elim
  | saveResetToken _ => exact hcalls.elim
  | saveCredential useCase credential =>
    obtain rfl : useCase = .authenticateWithPassword := hcalls
    by_cases huser : credential.userId = userId
    · have hfollows : FollowsLogin D (s.deedsOf i) credential := hjust
      cases hfollows with
      | failed hfound hfirst => exact hcount.saved hlasting hfound hfirst huser
      | verified hfound hcompared hmatch hsame _ =>
        -- no compared password verifies the hash of the account
        obtain ⟨hhash, -⟩ := hcount.found i _ hfound (hsame.symm.trans huser)
        rw [hhash] at hcompared hmatch
        rw [hcount.wrong i _ hcompared] at hmatch
        cases hmatch
    · exact hcount.saved_of_ne huser

/-! ## Runs -/

/-- Each thread of a set that has saved the account is counted. -/
theorem card_le_counts {logins : Finset ℕ}
    (h : ∀ i ∈ logins, (s.deedsOf i).any (isCounting userId) = true) :
    logins.card ≤ counts userId s := by
  have hsubset : logins ⊆
      ((s.journal.filter fun entry => isCounting userId entry.2).map Prod.fst).toFinset := by
    intro i hi
    obtain ⟨deed, hdeed, hcounting⟩ := List.any_eq_true.mp (h i hi)
    refine List.mem_toFinset.mpr (List.mem_map.mpr ⟨(i, deed), ?_, rfl⟩)
    exact List.mem_filter.mpr ⟨mem_deedsOf.mp hdeed, hcounting⟩
  calc logins.card
      ≤ ((s.journal.filter fun entry => isCounting userId entry.2).map
          Prod.fst).toFinset.card := Finset.card_le_card hsubset
    _ ≤ ((s.journal.filter fun entry => isCounting userId entry.2).map Prod.fst).length :=
        List.toFinset_card_le _
    _ = counts userId s := by rw [List.length_map, counts, List.countP_eq_length_filter]

/-- A completed login on the account has counted itself. -/
theorem Counting.any_isCounting_of_done (h : Counting D userId start s) {password : String}
    (hanswered : Answered D password (s.deedsOf i))
    (hfinding : (s.deedsOf i).any (isFinding userId) = true) :
    (s.deedsOf i).any (isCounting userId) = true := by
  obtain ⟨deed, hdeed, hfinds⟩ := List.any_eq_true.mp hfinding
  unfold isFinding at hfinds
  split at hfinds
  · rename_i found
    have huser : found.userId = userId := by simpa using hfinds
    rcases hanswered found hdeed with ⟨before, after, hwrote, hsame⟩ | ⟨hcompared, hmatch⟩
    · exact List.any_eq_true.mpr ⟨_, hwrote, by simp [isCounting, hsame, huser]⟩
    · rw [(h.found i found hdeed huser).1] at hcompared hmatch
      rw [h.wrong i password hcompared] at hmatch
      cases hmatch
  · cases hfinds

/-- Two logins with wrong passwords find the sample account before either saves it. -/
def sampleGuesses : CredentialPool :=
  (execWhile sampleAccountDeployment.step
    (fun _ e => Starts (fun c => guessesWrong sampleAccountDeployment
      sampleCredential.passwordHash c = true) e) (Pool.initial sampleAccount)
    (loginReading 1 "first wrong guess" 1767229200000 ++
      loginReading 2 "second wrong guess" 1767229200000 ++
      List.replicate 4 (.answer 1 .served) ++ List.replicate 4 (.answer 2 .served))).get
    (by decide +kernel)

/-- Two logins with wrong passwords, one after the other. -/
def sampleGuessesInTurn : CredentialPool :=
  (execWhile sampleAccountDeployment.step
    (fun P e => Starts (fun c => guessesWrong sampleAccountDeployment
      sampleCredential.passwordHash c = true) e ∧ P.Allows (OneAtATime sampleOwner.id) e)
    (Pool.initial sampleAccount)
    (loginFailing 1 "first wrong guess" 1767229200000 ++
      loginFailing 2 "second wrong guess" 1767229260000)).get (by decide +kernel)

end Verixa.Credentials
