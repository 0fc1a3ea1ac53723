import Verixa.Credentials.ResetRedemption

/-!
# A completed reset is final

A login that finds a stale hash saves a new hash of the same password in a transaction of its own,
without a second look at the credential.  When a reset replaces the password in between, the login
puts the replaced password back (`replaced_password_returns`).  In runs in which a login saves a
credential only while the stored hash is the one it has found (`FindsHashAsFound`), no login that
starts after a reset has returned succeeds with a password that the reset has replaced, unless a
later change has set it again (`reset_is_final`).
-/

namespace Verixa.Credentials

open Concurrency CredentialStore

/-- A login that saves a credential finds the hash stored that it has found before. -/
def findsHashAsFound (i : ℕ) (s : CredentialStore) : CredentialRequest → Bool
  | .saveCredential .authenticateWithPassword credential =>
    (s.deedsOf i).all fun
      | .foundCredential .authenticateWithPassword found =>
        (s.credentialsByUserId.get? credential.userId).any fun stored =>
          decide (stored.passwordHash = found.passwordHash)
      | _ => true
  | _ => true

/-- `findsHashAsFound`, as a condition on the calls of a run. -/
def FindsHashAsFound (i : ℕ) (s : CredentialStore) (q : CredentialRequest) (_ : CredentialInput) :
    Prop :=
  findsHashAsFound i s q = true

instance (i : ℕ) (s : CredentialStore) (q : CredentialRequest) (ω : CredentialInput) :
    Decidable (FindsHashAsFound i s q ω) :=
  inferInstanceAs (Decidable (_ = true))

/-- The entries of a journal that are newer than the first like `entry`. -/
def since (entry : ℕ × CredentialDeed) :
    List (ℕ × CredentialDeed) → List (ℕ × CredentialDeed)
  | [] => []
  | e :: older => if entry ∈ older then e :: since entry older else []

/-- The credential that a reset or a change has set for the user, if the entry is one. -/
def setFor (userId : String) : ℕ × CredentialDeed → Option Credential
  | (_, .wroteCredential useCase _ after) =>
    if useCase ≠ .authenticateWithPassword ∧ after.userId = userId then some after else none
  | _ => none

/-- The entry sets a password for the user. -/
def setsPassword (D : CredentialDeployment) (userId password : String)
    (entry : ℕ × CredentialDeed) : Bool :=
  (setFor userId entry).any fun set => D.hasher.verify password set.passwordHash

/-- After a reset that has returned ok in `P` and has replaced a credential, no login that is
started later and has succeeded in `P'` has used a password that verifies the replaced credential
and not the new one, unless a later change or reset has set it again. -/
def ResetIsFinal (D : CredentialDeployment) (P P' : CredentialPool) : Prop :=
  ∀ r command user replaced after entry, P.returned r =
      some ⟨.confirmPasswordReset command, .ok (.ok ⟨user⟩)⟩ →
    entry = (r, CredentialDeed.wroteCredential
      (.confirmPasswordReset (hashToken D.sha256 command.token)) (some replaced) after) →
    entry ∈ P.store.journal →
    ∀ l login success, P.threads l = none →
      P'.returned l = some ⟨.authenticateWithPassword login, .ok (.ok success)⟩ →
      success.user.id = after.userId →
      D.hasher.verify login.password replaced.passwordHash = true →
      D.hasher.verify login.password after.passwordHash = false →
      ∃ later ∈ since entry P'.store.journal,
        setsPassword D after.userId login.password later = true

/-! ## Journals -/

/-- What is newer than an entry stays newer. -/
theorem since_subset_append {entry : ℕ × CredentialDeed} (newer : List (ℕ × CredentialDeed))
    {journal : List (ℕ × CredentialDeed)} (h : entry ∈ journal) :
    ∀ later ∈ since entry journal, later ∈ since entry (newer ++ journal) := by
  intro later hlater
  induction newer with
  | nil => exact hlater
  | cons e newer ih =>
    rw [List.cons_append, since, if_pos (List.mem_append_right newer h)]
    exact List.mem_cons_of_mem e ih

/-- The credential that was set last. -/
def lastSet (userId : String) (journal : List (ℕ × CredentialDeed)) : Option Credential :=
  journal.findSome? (setFor userId)

/-- After a credential was set, the one that was set last is that one or a later one. -/
theorem lastSet_of_mem {userId : String} {entry : ℕ × CredentialDeed} {set : Credential}
    (hset : setFor userId entry = some set) {journal : List (ℕ × CredentialDeed)}
    (h : entry ∈ journal) : ∃ last, lastSet userId journal = some last ∧
      (last = set ∨ ∃ later ∈ since entry journal, setFor userId later = some last) := by
  induction journal with
  | nil => cases h
  | cons e older ih =>
    rw [lastSet, List.findSome?_cons, since]
    by_cases hold : entry ∈ older
    · rw [if_pos hold]
      cases he : setFor userId e with
      | some last => exact ⟨last, rfl, .inr ⟨e, List.mem_cons_self, he⟩⟩
      | none =>
        obtain ⟨last, hlast, hor⟩ := ih hold
        refine ⟨last, hlast, hor.imp_right ?_⟩
        rintro ⟨later, hlater, hsets⟩
        exact ⟨later, List.mem_cons_of_mem e hlater, hsets⟩
    · obtain rfl : entry = e := (List.mem_cons.mp h).resolve_right hold
      rw [hset]
      exact ⟨set, rfl, .inl rfl⟩

/-! ## The law of passwords -/

/-- Every password that verifies the stored hash, or one that a login has found, verifies the one
that was set last before. -/
structure PasswordsAreSet (D : CredentialDeployment) (s : CredentialStore) : Prop where
  stored : ∀ credential last password,
    s.credentialsByUserId.get? credential.userId = some credential →
    lastSet credential.userId s.journal = some last →
    D.hasher.verify password credential.passwordHash = true →
    D.hasher.verify password last.passwordHash = true
  found : ∀ l found newer older last password,
    s.journal = newer ++ (l, .foundCredential .authenticateWithPassword found) :: older →
    lastSet found.userId older = some last →
    D.hasher.verify password found.passwordHash = true →
    D.hasher.verify password last.passwordHash = true

/-- The law of passwords. -/
def finality (D : CredentialDeployment) : CredentialLaw where
  inv := PasswordsAreSet D

variable {D : CredentialDeployment} {i : ℕ} {s u : CredentialStore}

theorem lastSet_cons_of_none {userId : String} {entry : ℕ × CredentialDeed}
    (h : setFor userId entry = none) (journal : List (ℕ × CredentialDeed)) :
    lastSet userId (entry :: journal) = lastSet userId journal := by
  rw [lastSet, List.findSome?_cons, h, lastSet]

/-- The law looks at the credentials and the journal only. -/
theorem PasswordsAreSet.of_untouched (h : PasswordsAreSet D s) (hsame : Untouched s u) :
    PasswordsAreSet D u := by
  constructor
  · simpa only [hsame.credentialsByUserId, hsame.journal] using h.stored
  · simpa only [hsame.journal] using h.found

/-- What logins have found, after a deed. -/
theorem PasswordsAreSet.found_of_deed (h : PasswordsAreSet D s) {deed : CredentialDeed}
    (hjournal : u.journal = (i, deed) :: s.journal)
    (hfound : ∀ found, deed = .foundCredential .authenticateWithPassword found →
      s.credentialsByUserId.get? found.userId = some found) :
    ∀ l found newer older last password,
      u.journal = newer ++ (l, .foundCredential .authenticateWithPassword found) :: older →
      lastSet found.userId older = some last →
      D.hasher.verify password found.passwordHash = true →
      D.hasher.verify password last.passwordHash = true := by
  intro l found newer older last password hsplit hlast hverify
  rw [hjournal] at hsplit
  cases newer with
  | nil =>
    obtain ⟨hentry, rfl⟩ := List.cons.inj hsplit
    have hdeed : deed = .foundCredential .authenticateWithPassword found :=
      congrArg Prod.snd hentry
    exact h.stored found last password (hfound found hdeed) hlast hverify
  | cons entry newer =>
    obtain ⟨-, hrest⟩ := List.cons.inj hsplit
    exact h.found l found newer older last password hrest hlast hverify

/-- A deed that leaves the credentials alone; what a login finds is stored. -/
theorem PasswordsAreSet.of_deed (h : PasswordsAreSet D s) {deed : CredentialDeed}
    (hcredentials : u.credentialsByUserId = s.credentialsByUserId)
    (hjournal : u.journal = (i, deed) :: s.journal)
    (hset : ∀ userId, setFor userId (i, deed) = none)
    (hfound : ∀ found, deed = .foundCredential .authenticateWithPassword found →
      s.credentialsByUserId.get? found.userId = some found) : PasswordsAreSet D u where
  stored credential last password hstored hlast := by
    rw [hjournal, lastSet_cons_of_none (hset _)] at hlast
    rw [hcredentials] at hstored
    exact h.stored credential last password hstored hlast
  found := h.found_of_deed hjournal hfound

/-- Saving a credential, when every password that verifies it verifies the one that was set
last. -/
theorem PasswordsAreSet.saveCredential (h : PasswordsAreSet D s) {useCase : CredentialUseCase}
    {credential : Credential}
    (hset : ∀ last password,
      lastSet credential.userId (s.saveCredential i useCase credential).journal = some last →
      D.hasher.verify password credential.passwordHash = true →
      D.hasher.verify password last.passwordHash = true) :
    PasswordsAreSet D (s.saveCredential i useCase credential) where
  stored other last password hstored hlast hverify := by
    by_cases huser : credential.userId = other.userId
    · have hsaved : (s.saveCredential i useCase credential).credentialsByUserId.get?
          other.userId = some credential := by
        rw [← huser]
        exact KeyedMap.get?_put_self _ _
      obtain rfl : credential = other := Option.some.inj (hsaved.symm.trans hstored)
      exact hset last password hlast hverify
    · have hkept : s.credentialsByUserId.get? other.userId = some other := by
        rw [← KeyedMap.get?_put_of_ne _ huser]
        exact hstored
      have hnone : setFor other.userId (i, .wroteCredential useCase
          (s.credentialsByUserId.get? credential.userId) credential) = none := by
        simp [setFor, huser]
      exact h.stored other last password hkept
        ((lastSet_cons_of_none hnone _).symm.trans hlast) hverify
  found := h.found_of_deed rfl (by simp)

/-- What a login saves is verified by no password that does not verify what is stored. -/
theorem verify_stored_of_followsLogin (hexact : D.hasher.VerifiesExactly) {credential : Credential}
    (hfollows : FollowsLogin D (s.deedsOf i) credential)
    (hallowed :
      findsHashAsFound i s (.saveCredential .authenticateWithPassword credential) = true) :
    ∃ stored, s.credentialsByUserId.get? credential.userId = some stored ∧
      ∀ password, D.hasher.verify password credential.passwordHash = true →
        D.hasher.verify password stored.passwordHash = true := by
  have hstored : ∀ found, .foundCredential .authenticateWithPassword found ∈ s.deedsOf i →
      ∃ stored, s.credentialsByUserId.get? credential.userId = some stored ∧
        stored.passwordHash = found.passwordHash := by
    intro found hfound
    have hany := List.all_eq_true.mp hallowed _ hfound
    simpa [Option.any_eq_true] using hany
  cases hfollows with
  | failed hfound hfirst =>
    obtain ⟨stored, hget, hhash⟩ := hstored _ hfound
    refine ⟨stored, hget, fun password hverify => ?_⟩
    rw [hhash]
    exact hverify
  | @verified found _ presented hfound hcompared hmatch huser hhash =>
    obtain ⟨stored, hget, hsame⟩ := hstored _ hfound
    refine ⟨stored, hget, fun password hverify => ?_⟩
    rw [hsame]
    rcases hhash with hhash | hhash
    · rw [← hhash]
      exact hverify
    · -- an upgraded hash verifies the presented password only
      obtain rfl : password = presented := (hexact presented _ hhash password).mp hverify
      exact hmatch

/-- If the hasher verifies exactly, justified calls that find the hash they have found before keep
the law. -/
theorem keptBy_finality (hexact : D.hasher.VerifiesExactly) :
    KeptBy D (finality D) FindsHashAsFound := by
  intro i s q ω r u hinv hjust hallowed hserve
  refine ⟨?_, fun hisolated => hisolated.elim⟩
  cases effect_of_serve hserve with
  | untouched _ huntouched => exact hinv.of_untouched huntouched
  | verify plaintext hash => exact hinv.of_deed rfl rfl (fun _ => rfl) (by simp)
  | foundCredential useCase hfound =>
    refine hinv.of_deed rfl rfl (fun _ => rfl) fun found hdeed => ?_
    cases hdeed
    rw [KeyedMap.key_of_get? hfound]
    exact hfound
  | foundResetToken _ => exact hinv.of_deed rfl rfl (fun _ => rfl) (by simp)
  | saveResetToken token => exact hinv.of_deed rfl rfl (fun _ => rfl) (by simp)
  | saveCredential useCase credential =>
    refine hinv.saveCredential fun last password hlast hverify => ?_
    by_cases hlogin : useCase = .authenticateWithPassword
    · subst hlogin
      rw [saveCredential, journal_note, lastSet_cons_of_none (by simp [setFor])] at hlast
      obtain ⟨stored, hstored, hweaker⟩ := verify_stored_of_followsLogin hexact hjust hallowed
      have huser : stored.userId = credential.userId := KeyedMap.key_of_get? hstored
      rw [← huser] at hstored hlast
      exact hinv.stored stored last password hstored hlast (hweaker password hverify)
    · have hsets : lastSet credential.userId (s.saveCredential i useCase credential).journal =
          some credential := by
        simp [lastSet, CredentialStore.saveCredential, setFor, hlogin]
      obtain rfl : credential = last := Option.some.inj (hsets.symm.trans hlast)
      exact hverify

/-! ## Runs -/

/-- A login has found the stale hash when a reset replaces the password. -/
def sampleResetDone : CredentialPool :=
  (exec sampleAccountDeployment.step (Pool.initial sampleAccount)
    (loginVerifying 1 "correct horse battery" 1767229200000 ++
      resetReading 0 "a whole new password" 1767229200000 ++
      resetWriting 0 1 1767229200000)).get (by decide +kernel)

/-- The first login upgrades the hash, and a second one presents the replaced password. -/
def sampleReplacedReturned : CredentialPool :=
  (exec sampleAccountDeployment.step sampleResetDone
    (loginUpgrading 1 "correct horse battery" 1767229200000 ++
      loginVerifying 2 "correct horse battery" 1767229260000)).get (by decide +kernel)

/-- The upgrade of a hash can put a replaced password back. -/
theorem replaced_password_returns :
    sampleAccountDeployment.hasher.VerifiesExactly ∧
      ∃ P P', Run sampleAccountDeployment.step (Pool.initial sampleAccount) P ∧
        Run sampleAccountDeployment.step P P' ∧ ¬ ResetIsFinal sampleAccountDeployment P P' := by
  refine ⟨sampleHasher_verifiesExactly, sampleResetDone, sampleReplacedReturned, runWhile_get _,
    runWhile_get _, fun hfinal => ?_⟩
  have hidle : sampleResetDone.threads 2 = none :=
    Option.isNone_iff_eq_none.mp (by decide +kernel)
  have hlater := hfinal 0 ⟨sampleLink, "a whole new password"⟩ sampleOwner sampleCredential
    (sampleCredential.rotatePassword "m=19456$a whole new password" ⟨5⟩ 1767229200000) _
    (by decide +kernel) rfl (by decide +kernel) 2 ⟨"ada@example.com", "correct horse battery"⟩
    (.signedIn sampleOwner false) hidle (by decide +kernel) rfl (by decide +kernel)
    (by decide +kernel)
  exact absurd hlater (by decide +kernel)

/-- If the hasher verifies exactly: in runs in which a login saves a credential only while the
stored hash is the one it has found, a completed reset is final. -/
theorem reset_is_final (hexact : D.hasher.VerifiesExactly) (hjournal : s.journal = [])
    {P P' : CredentialPool}
    (hrun : RunWhile D.step (fun P e => P.Allows FindsHashAsFound e) (Pool.initial s) P)
    (hrun' : RunWhile D.step (fun P e => P.Allows FindsHashAsFound e) P P') :
    ResetIsFinal D P P' := by
  have hinitial : PasswordsAreSet D s :=
    ⟨by simp [hjournal, lastSet], by simp [hjournal]⟩
  have hsound := soundCredentials_of_run (keptBy_finality hexact)
    (soundCredentials_initial (L := finality D) hjournal hinitial) hrun
  have hsound' := soundCredentials_of_run (keptBy_finality hexact) hsound hrun'
  have hinv : PasswordsAreSet D P'.store := hsound'.inv
  intro r command user replaced after entry _ hentry hmem l login success hidle hlogin huser _
    hreplaced
  -- the login has found a credential that its password verifies
  obtain ⟨begun, hl⟩ := Pool.threads_of_returned hlogin
  have hdone : FitsLoginResult D login.password (.ok (.ok success)) (P'.store.deedsOf l) :=
    hsound'.done_of_ret hl
  obtain ⟨found, hfound, hfoundUser, hverify⟩ := hdone.2 success rfl
  -- it has found it after the reset
  obtain ⟨added, hadded⟩ := journal_suffix_of_run hrun'
  have hnew : (l, .foundCredential .authenticateWithPassword found) ∈ added := by
    have hold : (l, .foundCredential .authenticateWithPassword found) ∉ P.store.journal := by
      have hnone : P.store.deedsOf l = [] := hsound.idle l hidle
      rw [← mem_deedsOf, hnone]
      exact List.not_mem_nil
    have hall := mem_deedsOf.mp hfound
    rw [← hadded] at hall
    exact (List.mem_append.mp hall).resolve_right hold
  obtain ⟨newer, older, hsplit⟩ := List.append_of_mem hnew
  have hjournal' : P'.store.journal =
      newer ++ (l, .foundCredential .authenticateWithPassword found) ::
        (older ++ P.store.journal) := by
    rw [← hadded, hsplit, List.append_assoc, List.cons_append]
  have hset : setFor after.userId entry = some after := by simp [hentry, setFor]
  have hbefore : entry ∈ older ++ P.store.journal := List.mem_append_right older hmem
  obtain ⟨last, hlast, hor⟩ := lastSet_of_mem hset hbefore
  have hmatch : D.hasher.verify login.password last.passwordHash = true := by
    refine hinv.found l found newer (older ++ P.store.journal) last login.password hjournal' ?_
      hverify
    rw [hfoundUser, huser]
    exact hlast
  rcases hor with rfl | ⟨later, hlater, hsets⟩
  · rw [hmatch] at hreplaced
    cases hreplaced
  · refine ⟨later, ?_, by simp [setsPassword, hsets, hmatch]⟩
    rw [hjournal', List.append_cons]
    exact since_subset_append _ hbefore later hlater

/-- A reset while nothing else happens. -/
def sampleResetQuietly : CredentialPool :=
  (execWhile sampleAccountDeployment.step (fun P e => P.Allows FindsHashAsFound e)
    (Pool.initial sampleAccount) (resetReading 0 "a whole new password" 1767229200000 ++
      resetWriting 0 1 1767229200000)).get (by decide +kernel)

/-- A login then presents the replaced password. -/
def sampleReplacedRefused : CredentialPool :=
  (execWhile sampleAccountDeployment.step (fun P e => P.Allows FindsHashAsFound e)
    sampleResetQuietly (loginFailing 2 "correct horse battery" 1767229260000)).get
    (by decide +kernel)

/-- The replaced password is refused. -/
theorem reset_is_final_sample :
    ResetIsFinal sampleAccountDeployment sampleResetQuietly sampleReplacedRefused ∧
      sampleReplacedRefused.returned 2 =
        some ⟨.authenticateWithPassword ⟨"ada@example.com", "correct horse battery"⟩,
          .ok (.error (.authentication {}))⟩ :=
  ⟨reset_is_final sampleHasher_verifiesExactly rfl (runWhile_get _) (runWhile_get _),
    by decide +kernel⟩

end Verixa.Credentials
