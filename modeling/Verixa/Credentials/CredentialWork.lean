import Verixa.Credentials.CredentialUseCases

/-!
# What the password use cases leave to each other

All that a use case knows between two of its calls is its own deeds: whatever the others do, they
add none to them, and, where transactions are isolated, they write no credential while its
transaction is open (`Spares`).  What a use case promises of a call, it promises because of its
deeds (`Justified`): it saves a credential that follows from one it has found, and a reset token
that it has found and consumed.

A development adds to this a law of its own (`CredentialLaw`): an invariant of the store which
justified calls keep, possibly under a further condition on the calls (`KeptBy`).
-/

namespace Verixa

open Concurrency

/-! ## What a call does to the store -/

namespace CredentialStore

variable {D : CredentialServices} {s t u : CredentialStore} {i j : ℕ} {ω : CredentialInput}

theorem mem_deedsOf {deed : CredentialDeed} : deed ∈ s.deedsOf i ↔ (i, deed) ∈ s.journal := by
  simp [deedsOf]

@[simp] theorem journal_note (deed : CredentialDeed) :
    (s.note i deed).journal = (i, deed) :: s.journal := rfl

/-- The deeds of the thread that has just done one. -/
theorem deedsOf_of_journal {deed : CredentialDeed} (h : u.journal = (i, deed) :: s.journal) :
    u.deedsOf i = deed :: s.deedsOf i := by
  simp [deedsOf, h]

/-- The deeds of another thread. -/
theorem deedsOf_of_journal_of_ne {deed : CredentialDeed} (h : u.journal = (i, deed) :: s.journal)
    (hj : j ≠ i) : u.deedsOf j = s.deedsOf j := by
  simp [deedsOf, h, Ne.symm hj]

@[simp] theorem credentialsByUserId_note (deed : CredentialDeed) :
    (s.note i deed).credentialsByUserId = s.credentialsByUserId := rfl

@[simp] theorem passwordResetTokensById_note (deed : CredentialDeed) :
    (s.note i deed).passwordResetTokensById = s.passwordResetTokensById := rfl

@[simp] theorem openTransactions_note (deed : CredentialDeed) :
    (s.note i deed).openTransactions = s.openTransactions := rfl

theorem openTransactions_noteFound {α : Type} (deed : α → CredentialDeed) (found : Option α) :
    (s.noteFound i deed found).openTransactions = s.openTransactions := by
  cases found <;> rfl

/-- What was found by the digest has the digest, and is stored under its id. -/
theorem of_findResetTokenByHash {tokenHash : String} {token : PasswordResetToken}
    (h : s.findResetTokenByHash tokenHash = some token) :
    token.tokenHash = tokenHash ∧ s.passwordResetTokensById.get? token.id = some token := by
  have hhash : token.tokenHash = tokenHash := by simpa using List.find?_some h
  exact ⟨hhash, KeyedMap.get?_of_mem_values (List.mem_of_find?_eq_some h)⟩

/-- The journal, the credentials and the reset tokens are as they were. -/
structure Untouched (s u : CredentialStore) : Prop where
  journal : u.journal = s.journal
  credentialsByUserId : u.credentialsByUserId = s.credentialsByUserId
  passwordResetTokensById : u.passwordResetTokensById = s.passwordResetTokensById

/-- A call with this answer notes nothing. -/
def Silent : (q : CredentialRequest) → q.Answer → Prop
  | .verify _ _, _ | .saveCredential _ _, _ | .saveResetToken _, _ => False
  | .findCredentialByUserId _ _, answer => answer = none
  | .findResetTokenByHash _, answer => answer = none
  | _, _ => True

/-- What an answered call has noted and written. -/
inductive Effect (D : CredentialServices) (i : ℕ) (s : CredentialStore) :
    (q : CredentialRequest) → q.Answer → CredentialStore → Prop
  | untouched {q : CredentialRequest} {r : q.Answer} {u : CredentialStore} (hsilent : Silent q r)
      (h : Untouched s u) : Effect D i s q r u
  | verify (plaintext hash : String) :
      Effect D i s (.verify plaintext hash) (D.hasher.verify plaintext hash)
        (s.note i (.compared plaintext hash))
  | foundCredential (useCase : CredentialUseCase) {userId : String} {credential : Credential}
      (h : s.credentialsByUserId.get? userId = some credential) :
      Effect D i s (.findCredentialByUserId useCase userId) (some credential)
        (s.note i (.foundCredential useCase credential))
  | foundResetToken {tokenHash : String} {token : PasswordResetToken}
      (h : s.findResetTokenByHash tokenHash = some token) :
      Effect D i s (.findResetTokenByHash tokenHash) (some token)
        (s.note i (.foundResetToken token))
  | saveCredential (useCase : CredentialUseCase) (credential : Credential) :
      Effect D i s (.saveCredential useCase credential) ()
        (s.saveCredential i useCase credential)
  | saveResetToken (token : PasswordResetToken) :
      Effect D i s (.saveResetToken token) () (s.saveResetToken i token)

/-- Every call has one of these effects. -/
theorem effect_of_serve {q : CredentialRequest} {r : q.Answer}
    (h : s.serve D i q ω = some (r, u)) : Effect D i s q r u := by
  cases q with
  | verify plaintext hash =>
    cases ω <;> cases h
    exact .verify plaintext hash
  | findCredentialByUserId useCase userId =>
    cases ω <;> cases h
    cases hfound : s.credentialsByUserId.get? userId with
    | none => exact .untouched rfl ⟨rfl, rfl, rfl⟩
    | some credential => exact .foundCredential useCase hfound
  | saveCredential useCase credential =>
    cases ω <;> cases h
    exact .saveCredential useCase credential
  | findResetTokenByHash tokenHash =>
    cases ω <;> cases h
    cases hfound : s.findResetTokenByHash tokenHash with
    | none => exact .untouched rfl ⟨rfl, rfl, rfl⟩
    | some token => exact .foundResetToken hfound
  | saveResetToken token =>
    cases ω <;> cases h
    exact .saveResetToken token
  | hash plaintext =>
    cases ω with
    | text hash =>
      simp only [serve] at h
      split at h
      · cases h
        exact .untouched trivial ⟨rfl, rfl, rfl⟩
      · cases h
    | failed =>
      cases h
      exact .untouched trivial ⟨rfl, rfl, rfl⟩
    | _ => cases h
  | _ =>
    cases ω <;> cases h
    all_goals exact .untouched trivial ⟨rfl, rfl, rfl⟩

/-- A hash that was made is one of the password. -/
theorem hashes_of_serve {plaintext : String} {answer : Option String}
    (h : s.serve D i (.hash plaintext) ω = some (answer, u)) :
    ∀ hash, answer = some hash → D.hasher.hashes plaintext hash = true := by
  intro hash hanswer
  cases ω with
  | text hash' =>
    simp only [serve] at h
    split at h
    · rename_i hhashes
      cases h
      cases hanswer
      exact hhashes
    · cases h
  | failed =>
    cases h
    cases hanswer
  | _ => cases h

/-- The journal only grows. -/
theorem journal_suffix_of_serve {q : CredentialRequest} {r : q.Answer}
    (h : s.serve D i q ω = some (r, u)) : s.journal <:+ u.journal := by
  cases effect_of_serve h with
  | untouched _ huntouched => exact huntouched.journal ▸ List.suffix_refl _
  | verify plaintext hash => exact List.suffix_cons _ _
  | foundCredential useCase _ => exact List.suffix_cons _ _
  | foundResetToken _ => exact List.suffix_cons _ _
  | saveCredential useCase credential => exact List.suffix_cons _ _
  | saveResetToken token => exact List.suffix_cons _ _

/-- Which transactions are open after a call. -/
theorem openTransactions_of_serve {q : CredentialRequest} {r : q.Answer}
    (h : s.serve D i q ω = some (r, u)) :
    u.openTransactions =
      match q with
      | .begin => i :: s.openTransactions
      | .finish => s.openTransactions.filter fun j => j ≠ i
      | _ => s.openTransactions := by
  cases q with
  | findCredentialByUserId useCase userId =>
    cases ω <;> cases h
    exact openTransactions_noteFound _ _
  | findResetTokenByHash tokenHash =>
    cases ω <;> cases h
    exact openTransactions_noteFound _ _
  | hash plaintext =>
    cases ω with
    | text hash =>
      simp only [serve] at h
      split at h
      · cases h
        rfl
      · cases h
    | failed =>
      cases h
      rfl
    | _ => cases h
  | _ =>
    cases ω <;> cases h
    all_goals rfl

/-- A call leaves the transactions of the others open. -/
theorem mem_openTransactions_of_serve {q : CredentialRequest} {r : q.Answer}
    (h : s.serve D i q ω = some (r, u)) (hj : j ≠ i) (hopen : j ∈ s.openTransactions) :
    j ∈ u.openTransactions := by
  rw [openTransactions_of_serve h]
  split
  · exact List.mem_cons_of_mem _ hopen
  · simpa [hj] using hopen
  · exact hopen

end CredentialStore

namespace Credentials

open CredentialStore

/-! ## The contract -/

/-- What the others do between the stores `s` and `t` leaves thread `i` what it counts on;
`isolated` says that transactions are. -/
structure Spares (isolated : Prop) (i : ℕ) (s t : CredentialStore) : Prop where
  deeds : t.deedsOf i = s.deedsOf i
  stillOpen : i ∈ s.openTransactions → i ∈ t.openTransactions
  still : isolated → i ∈ s.openTransactions → t.credentialsByUserId = s.credentialsByUserId

theorem Spares.refl (isolated : Prop) (i : ℕ) (s : CredentialStore) : Spares isolated i s s where
  deeds := rfl
  stillOpen h := h
  still _ _ := rfl

theorem Spares.trans {isolated : Prop} {i : ℕ} {s t u : CredentialStore}
    (hst : Spares isolated i s t) (htu : Spares isolated i t u) : Spares isolated i s u where
  deeds := htu.deeds.trans hst.deeds
  stillOpen h := htu.stillOpen (hst.stillOpen h)
  still hisolated h := (htu.still hisolated (hst.stillOpen h)).trans (hst.still hisolated h)

/-- A law of the store: an invariant, and whether it counts on isolated transactions. -/
structure CredentialLaw where
  isolated : Prop := False
  inv : CredentialStore → Prop

/-- The contract of the use cases under a law. -/
def CredentialLaw.contract (L : CredentialLaw) : Protocol CredentialStore where
  inv := L.inv
  rely := Spares L.isolated
  rely_refl := Spares.refl L.isolated
  rely_trans _ _ _ _ := Spares.trans

/-- The credential that a login saves follows from the one it has found: a failure more, or, when
the password was right, cleared or with a hash of that password. -/
inductive FollowsLogin (D : CredentialDeployment) (deeds : List CredentialDeed) :
    Credential → Prop
  | failed {found : Credential} {now : ℤ}
      (hfound : .foundCredential .authenticateWithPassword found ∈ deeds)
      (hfirst : ∀ before after, .wroteCredential .authenticateWithPassword before after ∉ deeds) :
      FollowsLogin D deeds (found.recordFailedAttempt D.lockoutPolicy now)
  | verified {found after : Credential} {password : String}
      (hfound : .foundCredential .authenticateWithPassword found ∈ deeds)
      (hcompared : .compared password found.passwordHash ∈ deeds)
      (hmatch : D.hasher.verify password found.passwordHash = true)
      (huser : after.userId = found.userId)
      (hhash : after.passwordHash = found.passwordHash ∨
        D.hasher.hashes password after.passwordHash = true) :
      FollowsLogin D deeds after

/-- What thread `i` promises of a call it makes. -/
def Justified (D : CredentialDeployment) (isolated : Prop) (i : ℕ) (s : CredentialStore) :
    CredentialRequest → Prop
  | .verify _ hash =>
    (∀ found, .foundCredential .authenticateWithPassword found ∉ s.deedsOf i) ∨
      ∃ found, s.deedsOf i = [.foundCredential .authenticateWithPassword found] ∧
        hash = found.passwordHash
  | .findCredentialByUserId .authenticateWithPassword _ => s.deedsOf i = []
  | .saveCredential .authenticateWithPassword credential =>
    FollowsLogin D (s.deedsOf i) credential
  | .saveCredential (.confirmPasswordReset tokenHash) _ =>
    ∃ before after, .wroteResetToken before after ∈ s.deedsOf i ∧ after.tokenHash = tokenHash
  | .saveCredential .changePassword credential =>
    ∃ found, (.foundCredential .changePassword found ∈ s.deedsOf i) ∧
      credential.userId = found.userId ∧
      (isolated → s.credentialsByUserId.get? credential.userId = some found)
  | .saveResetToken token =>
    ∃ found now, .foundResetToken found ∈ s.deedsOf i ∧ found.consume now = .ok token
  | _ => True

variable {D : CredentialDeployment} {L : CredentialLaw}
  {allowed : ℕ → CredentialStore → CredentialRequest → CredentialInput → Prop} {i : ℕ}
  {s t u : CredentialStore}

variable (D) in
/-- Justified calls that meet `allowed` keep the law, and, if the law counts on isolation, write no
credential while another transaction is open. -/
def KeptBy (L : CredentialLaw)
    (allowed : ℕ → CredentialStore → CredentialRequest → CredentialInput → Prop) : Prop :=
  ∀ i s q ω r u, L.inv s → Justified D L.isolated i s q → allowed i s q ω →
    D.serve i s q ω = some (r, u) →
    L.inv u ∧ (L.isolated → ∀ j ∈ s.openTransactions, j ≠ i →
      u.credentialsByUserId = s.credentialsByUserId)

/-- A call adds no deeds to those of another thread. -/
theorem deedsOf_of_serve {j : ℕ} {q : CredentialRequest} {ω : CredentialInput} {r : q.Answer}
    (h : D.serve i s q ω = some (r, u)) (hj : j ≠ i) : u.deedsOf j = s.deedsOf j := by
  cases effect_of_serve h with
  | untouched hsilent huntouched => rw [deedsOf, deedsOf, huntouched.journal]
  | verify plaintext hash => exact deedsOf_of_journal_of_ne rfl hj
  | foundCredential useCase hfound => exact deedsOf_of_journal_of_ne rfl hj
  | foundResetToken hfound => exact deedsOf_of_journal_of_ne rfl hj
  | saveCredential useCase credential => exact deedsOf_of_journal_of_ne rfl hj
  | saveResetToken token => exact deedsOf_of_journal_of_ne rfl hj

/-- What a thread knows: what it has done. -/
def Knows (i : ℕ) (s : CredentialStore) (deeds : List CredentialDeed) : Prop :=
  s.deedsOf i = deeds

theorem Knows.of_rely {deeds : List CredentialDeed} (h : Knows i s deeds)
    (hst : L.contract.rely i s t) : Knows i t deeds :=
  hst.deeds.trans h

/-- After a deed. -/
theorem Knows.of_deed {deeds : List CredentialDeed} {deed : CredentialDeed} (h : Knows i s deeds)
    (hjournal : t.journal = (i, deed) :: s.journal) : Knows i t (deed :: deeds) :=
  (deedsOf_of_journal hjournal).trans (congrArg _ h)

/-- After a call that has left everything untouched. -/
theorem Knows.of_untouched {deeds : List CredentialDeed} (h : Knows i s deeds)
    (huntouched : Untouched s t) : Knows i t deeds := by
  rw [Knows, deedsOf, huntouched.journal]
  exact h

/-! ## Rules for calls -/

section Rules

variable {γ : Type} {post : CredentialStore → γ → Prop} {deeds : List CredentialDeed}

/-- A justified call keeps to the contract. -/
theorem safe_call (hkept : KeptBy D L allowed) {q : CredentialRequest}
    {f : q.Answer → CredentialProgram γ} (hknows : Knows i s deeds)
    (hjust : ∀ t, Spares L.isolated i s t → Knows i t deeds →
      Justified D L.isolated i t q)
    (h : ∀ t ω r u, Spares L.isolated i s t → Knows i t deeds →
      D.serve i t q ω = some (r, u) → Safe L.contract D.serve allowed i post (f r) u) :
    Safe L.contract D.serve allowed i post (.call q f) s := by
  intro t ω r u ht hinv hallowed hserve
  have hknows_t := hknows.of_rely ht
  have hjust_t := hjust t ht hknows_t
  obtain ⟨hinv_u, hstill⟩ := hkept i t q ω r u hinv hjust_t hallowed hserve
  have hspares : ∀ j, j ≠ i → Spares L.isolated j t u := fun j hj =>
    ⟨deedsOf_of_serve hserve hj, mem_openTransactions_of_serve hserve hj,
      fun hisolated hopen => hstill hisolated j hopen hj⟩
  exact ⟨hinv_u, hspares, h t ω r u ht hknows_t hserve⟩

/-- A call that notes nothing. -/
theorem safe_silent (hkept : KeptBy D L allowed) (q : CredentialRequest)
    (hsilent : ∀ r, Silent q r) (hjust : ∀ t, Justified D L.isolated i t q)
    (hknows : Knows i s deeds) {f : q.Answer → CredentialProgram γ}
    (h : ∀ t r, Knows i t deeds → Safe L.contract D.serve allowed i post (f r) t) :
    Safe L.contract D.serve allowed i post (.call q f) s := by
  refine safe_call hkept hknows (fun t _ _ => hjust t) fun t ω r u _ hknows_t hserve => ?_
  cases effect_of_serve hserve with
  | untouched _ huntouched => exact h u r (hknows_t.of_untouched huntouched)
  | verify plaintext hash => exact absurd (hsilent true) id
  | @foundCredential _ _ credential _ => exact nomatch hsilent (some credential)
  | @foundResetToken _ token _ => exact nomatch hsilent (some token)
  | saveCredential useCase credential => exact absurd (hsilent ()) id
  | saveResetToken token => exact absurd (hsilent ()) id

/-- Reading the clock; while a transaction is open nothing happens to the credentials, if
transactions are isolated. -/
theorem safe_now (hkept : KeptBy D L allowed) (hknows : Knows i s deeds)
    {f : ℤ → CredentialProgram γ}
    (h : ∀ t time, Knows i t deeds →
      (i ∈ s.openTransactions → i ∈ t.openTransactions ∧
        (L.isolated → t.credentialsByUserId = s.credentialsByUserId)) →
      Safe L.contract D.serve allowed i post (f time) t) :
    Safe L.contract D.serve allowed i post (CredentialCalls.now >>= f) s := by
  refine safe_call hkept hknows (fun _ _ _ => trivial)
    fun t ω r u hspares hknows_t hserve => ?_
  cases effect_of_serve hserve with
  | untouched _ huntouched =>
    refine h u r (hknows_t.of_untouched huntouched) fun hopen => ⟨?_, fun hisolated => ?_⟩
    · rw [openTransactions_of_serve hserve]
      exact hspares.stillOpen hopen
    · rw [huntouched.credentialsByUserId, hspares.still hisolated hopen]

/-- Opening a transaction. -/
theorem safe_begin (hkept : KeptBy D L allowed) (hknows : Knows i s deeds)
    {f : Unit → CredentialProgram γ}
    (h : ∀ t, Knows i t deeds → i ∈ t.openTransactions →
      Safe L.contract D.serve allowed i post (f ()) t) :
    Safe L.contract D.serve allowed i post (.call .begin f) s := by
  refine safe_call hkept hknows (fun _ _ _ => trivial)
    fun t ω r u _ hknows_t hserve => ?_
  cases effect_of_serve hserve with
  | untouched _ huntouched =>
    refine h u (hknows_t.of_untouched huntouched) ?_
    rw [openTransactions_of_serve hserve]
    exact List.mem_cons_self

/-- Hashing a password. -/
theorem safe_hash (hkept : KeptBy D L allowed) (hknows : Knows i s deeds)
    {plaintext : String} {f : Option String → CredentialProgram γ}
    (h : ∀ t answer, Knows i t deeds →
      (∀ hash, answer = some hash → D.hasher.hashes plaintext hash = true) →
      Safe L.contract D.serve allowed i post (f answer) t) :
    Safe L.contract D.serve allowed i post (CredentialCalls.hash plaintext >>= f) s := by
  refine safe_call hkept hknows (fun _ _ _ => trivial)
    fun t ω r u _ hknows_t hserve => ?_
  have hhashes := hashes_of_serve hserve
  cases effect_of_serve hserve with
  | untouched _ huntouched => exact h u r (hknows_t.of_untouched huntouched) hhashes

/-- Comparing a password with a hash. -/
theorem safe_verify (hkept : KeptBy D L allowed) {plaintext hash : String}
    (hjust : ∀ t, t.deedsOf i = deeds → Justified D L.isolated i t (.verify plaintext hash))
    (hknows : Knows i s deeds) {f : Bool → CredentialProgram γ}
    (h : ∀ t, Knows i t (.compared plaintext hash :: deeds) →
      Safe L.contract D.serve allowed i post (f (D.hasher.verify plaintext hash)) t) :
    Safe L.contract D.serve allowed i post (CredentialCalls.verify plaintext hash >>= f) s := by
  refine safe_call hkept hknows (fun t _ ht => hjust t ht)
    fun t ω r u _ hknows_t hserve => ?_
  cases effect_of_serve hserve with
  | untouched hsilent _ => exact absurd hsilent id
  | verify => exact h _ (hknows_t.of_deed rfl)

/-- Looking up a credential. -/
theorem safe_findCredentialByUserId (hkept : KeptBy D L allowed) {useCase : CredentialUseCase}
    {userId : String}
    (hjust : ∀ t, t.deedsOf i = deeds →
      Justified D L.isolated i t (.findCredentialByUserId useCase userId))
    (hknows : Knows i s deeds) {f : Option Credential → CredentialProgram γ}
    (hnone : ∀ t, Knows i t deeds →
      Safe L.contract D.serve allowed i post (f none) t)
    (hsome : ∀ t credential, Knows i t (.foundCredential useCase credential :: deeds) →
      credential.userId = userId →
      (i ∈ s.openTransactions → i ∈ t.openTransactions ∧
        t.credentialsByUserId.get? userId = some credential) →
      Safe L.contract D.serve allowed i post (f (some credential)) t) :
    Safe L.contract D.serve allowed i post
      (CredentialCalls.findCredentialByUserId useCase userId >>= f) s := by
  refine safe_call hkept hknows (fun t _ ht => hjust t ht)
    fun t ω r u hspares hknows_t hserve => ?_
  cases effect_of_serve hserve with
  | untouched hsilent huntouched =>
    obtain rfl : r = none := hsilent
    exact hnone u (hknows_t.of_untouched huntouched)
  | foundCredential _ hfound =>
    exact hsome _ _ (hknows_t.of_deed rfl) (KeyedMap.key_of_get? hfound) fun hopen =>
      ⟨hspares.stillOpen hopen, hfound⟩

/-- Saving a credential. -/
theorem safe_saveCredential (hkept : KeptBy D L allowed) {useCase : CredentialUseCase}
    {credential : Credential}
    (hjust : ∀ t, Spares L.isolated i s t → Knows i t deeds →
      Justified D L.isolated i t (.saveCredential useCase credential))
    (hknows : Knows i s deeds) {f : Unit → CredentialProgram γ}
    (h : ∀ t before, (i ∈ s.openTransactions → L.isolated →
        before = s.credentialsByUserId.get? credential.userId) →
      Knows i t (.wroteCredential useCase before credential :: deeds) →
      Safe L.contract D.serve allowed i post (f ()) t) :
    Safe L.contract D.serve allowed i post
      (CredentialCalls.saveCredential useCase credential >>= f) s := by
  refine safe_call hkept hknows hjust fun t ω r u hspares hknows_t hserve => ?_
  cases effect_of_serve hserve with
  | untouched hsilent huntouched => exact absurd hsilent id
  | saveCredential =>
    refine h _ _ (fun hopen hisolated => ?_) (hknows_t.of_deed rfl)
    rw [hspares.still hisolated hopen]

/-- Looking up a reset token by a digest. -/
theorem safe_findResetTokenByHash (hkept : KeptBy D L allowed) {tokenHash : String}
    (hknows : Knows i s deeds) {f : Option PasswordResetToken → CredentialProgram γ}
    (hnone : ∀ t, Knows i t deeds →
      Safe L.contract D.serve allowed i post (f none) t)
    (hsome : ∀ t token, Knows i t (.foundResetToken token :: deeds) →
      token.tokenHash = tokenHash → Safe L.contract D.serve allowed i post (f (some token)) t) :
    Safe L.contract D.serve allowed i post
      (CredentialCalls.findResetTokenByHash tokenHash >>= f) s := by
  refine safe_call hkept hknows (fun _ _ _ => trivial)
    fun t ω r u _ hknows_t hserve => ?_
  cases effect_of_serve hserve with
  | untouched hsilent huntouched =>
    obtain rfl : r = none := hsilent
    exact hnone u (hknows_t.of_untouched huntouched)
  | foundResetToken hfound =>
    exact hsome _ _ (hknows_t.of_deed rfl) (of_findResetTokenByHash hfound).1

/-- Saving a reset token. -/
theorem safe_saveResetToken (hkept : KeptBy D L allowed) {token : PasswordResetToken}
    (hjust : ∀ t, t.deedsOf i = deeds → Justified D L.isolated i t (.saveResetToken token))
    (hknows : Knows i s deeds) {f : Unit → CredentialProgram γ}
    (h : ∀ t before, Knows i t (.wroteResetToken before token :: deeds) →
      Safe L.contract D.serve allowed i post (f ()) t) :
    Safe L.contract D.serve allowed i post
      (CredentialCalls.saveResetToken token >>= f) s := by
  refine safe_call hkept hknows (fun t _ ht => hjust t ht)
    fun t ω r u _ hknows_t hserve => ?_
  cases effect_of_serve hserve with
  | untouched hsilent _ => exact absurd hsilent id
  | saveResetToken =>
    exact h _ _ (hknows_t.of_deed rfl)

end Rules

end Credentials

end Verixa
