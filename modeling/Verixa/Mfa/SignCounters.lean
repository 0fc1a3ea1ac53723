import Verixa.Mfa.ChallengeRedemption

/-!
# Signature counters

The counters of the credentials, in any interleaving of registrations and authentications.  An
execution compares the presented counter with that of the credential it has found, and saves the
credential in a later call, so that two executions at once can take a counter back
(`counter_taken_back`).

In runs in which every save finds stored the counter that its execution found, no counter is ever
taken back, and of the counters of accepted assertions a later one is greater, or both are zero.
-/

namespace Verixa.Mfa

open Concurrency

/-! ## What is saved -/

/-- The counter that is saved for a credential, if the deed is that. -/
def CeremonyDeed.savedCounter (credentialId : String) : CeremonyDeed → Option ℕ
  | .saved _ credential =>
    if credential.credentialId = credentialId then some credential.signCounter else none
  | _ => none

/-- The counters saved for a credential, the latest first. -/
def CeremonyStore.savedCounters (s : CeremonyStore) (credentialId : String) : List ℕ :=
  s.journal.filterMap fun entry => entry.2.savedCounter credentialId

/-- The thread has accepted its assertion. -/
def CeremonyPool.hasAuthenticated (P : CeremonyPool) (i : ℕ) : Bool :=
  match P.returned i with
  | some ⟨.authenticate _, .ok (.ok _)⟩ => true
  | _ => false

/-- The counter of an assertion that was accepted for a credential, from the save of the thread that
accepted it. -/
def CeremonyPool.acceptedCounter (P : CeremonyPool) (credentialId : String) :
    ℕ × CeremonyDeed → Option ℕ
  | (i, .saved presented credential) =>
    if credential.credentialId = credentialId ∧ P.hasAuthenticated i = true then presented
    else none
  | _ => none

/-- The counters of the assertions accepted for a credential, the latest first. -/
def CeremonyPool.acceptedCounters (P : CeremonyPool) (credentialId : String) : List ℕ :=
  P.store.journal.filterMap (P.acceptedCounter credentialId)

/-- A counter may follow an earlier one: it is greater, or counters are not in use. -/
def Advances (later earlier : ℕ) : Prop := earlier < later ∨ later = 0 ∧ earlier = 0

/-- The counters of accepted assertions advance. -/
def AcceptedAdvance (P : CeremonyPool) : Prop :=
  ∀ credentialId, (P.acceptedCounters credentialId).Pairwise Advances

/-- No counter of a credential is lower than it was. -/
def CountersStay (s t : CeremonyStore) : Prop :=
  ∀ credentialId credential, s.credentialsById.get? credentialId = some credential →
    ∃ credential', t.credentialsById.get? credentialId = some credential' ∧
      credential.signCounter ≤ credential'.signCounter

/-- The counter stored for a credential is the one that the thread has found. -/
def CeremonyStore.isCounterFound (s : CeremonyStore) (i : ℕ) (credentialId : String) : Bool :=
  (s.foundBy i).all fun found =>
    decide (found.map WebAuthnCredential.signCounter =
      (s.credentialsById.get? credentialId).map WebAuthnCredential.signCounter)

/-- A save finds stored the counter that its thread has found. -/
def CountersUntouched (i : ℕ) (s : CeremonyStore) (q : CeremonyRequest) (_ : CeremonyInput) :
    Prop :=
  match q with
  | .saveCredential credential => s.isCounterFound i credential.credentialId = true
  | _ => True

instance (i : ℕ) (s : CeremonyStore) (q : CeremonyRequest) (ω : CeremonyInput) :
    Decidable (CountersUntouched i s q ω) :=
  match q with
  | .saveCredential _ => inferInstanceAs (Decidable (_ = true))
  | .now | .createId | .randomChallenge | .saveChallenge _ | .findByChallenge _ | .consume _
  | .findByCredentialId _ | .findMethodById _ | .verifyAttestation _ | .verifyAssertion _
  | .publish _ | .saveMethod _ => isTrue trivial

/-! ## The law of counters -/

/-- The counters saved for a credential advance up to the stored one, and what is saved after a
verified assertion is its counter. -/
structure CountersRise (s : CeremonyStore) : Prop where
  advancing : ∀ credentialId, (s.savedCounters credentialId).Pairwise Advances
  bounded : ∀ credentialId, ∀ counter ∈ s.savedCounters credentialId,
    ∃ stored, s.credentialsById.get? credentialId = some stored ∧ counter ≤ stored.signCounter
  presented : ∀ i counter credential, (i, .saved (some counter) credential) ∈ s.journal →
    credential.signCounter = counter

/-- The law of counters. -/
def counterLaw : JournalLaw CeremonyStore CeremonyDeed where
  journal := CeremonyStore.journal
  inv := CountersRise
  order := CountersStay
  order_refl _ _ credential h := ⟨credential, h, le_rfl⟩
  order_trans _ _ _ hst htu credentialId credential h := by
    obtain ⟨credential', h', hle⟩ := hst credentialId credential h
    obtain ⟨credential'', h'', hle'⟩ := htu credentialId credential' h'
    exact ⟨credential'', h'', hle.trans hle'⟩

/-- What an execution promises of a save: its counter advances that of the credential which was
found, if one was, and is the one presented. -/
def CounterJustified (i : ℕ) (s : CeremonyStore) : CeremonyRequest → Prop
  | .saveCredential credential =>
    (∃ found, s.foundBy i = some found ∧
      ∀ before, found = some before → before.signCounter = 0 ∨
        before.signCounter < credential.signCounter) ∧
    ∀ counter, s.presentedTo i = some counter → credential.signCounter = counter
  | _ => True

section Law

variable {s t : CeremonyStore} {i : ℕ}

/-- Other calls leave counters and saves alone. -/
theorem CountersRise.of_other (h : CountersRise s)
    (hcredentials : t.credentialsById = s.credentialsById)
    (hjournal : t.journal = s.journal ∨ ∃ deed, t.journal = (i, deed) :: s.journal ∧
      ∀ presented credential, deed ≠ .saved presented credential) : CountersRise t := by
  have hsaved : ∀ credentialId, t.savedCounters credentialId = s.savedCounters credentialId := by
    intro credentialId
    rcases hjournal with hsame | ⟨deed, hdeed, hother⟩
    · rw [CeremonyStore.savedCounters, hsame, CeremonyStore.savedCounters]
    · have hnone : deed.savedCounter credentialId = none := by
        cases deed with
        | saved presented credential => exact absurd rfl (hother presented credential)
        | _ => rfl
      rw [CeremonyStore.savedCounters, hdeed]
      exact List.filterMap_cons_none hnone
  constructor
  · intro credentialId
    rw [hsaved]
    exact h.advancing credentialId
  · intro credentialId
    rw [hsaved, hcredentials]
    exact h.bounded credentialId
  · intro j counter credential hmem
    apply h.presented j counter credential
    rcases hjournal with hsame | ⟨deed, hdeed, hother⟩
    · rwa [hsame] at hmem
    · rw [hdeed] at hmem
      rcases List.mem_cons.mp hmem with heq | hmem
      · exact absurd (Prod.mk.inj heq).2.symm (hother _ _)
      · exact hmem

theorem credentialsById_saved {credential : WebAuthnCredential} {credentialId : String} :
    (s.saveCredential i credential).credentialsById.get? credentialId =
      if credential.credentialId = credentialId then some credential
      else s.credentialsById.get? credentialId :=
  KeyedMap.get?_put _ _ _

/-- A save that is justified and finds the counter untouched does not take it back. -/
theorem counter_le_of_save {credential stored : WebAuthnCredential}
    (hjust : CounterJustified i s (.saveCredential credential))
    (hallowed : s.isCounterFound i credential.credentialId = true)
    (hstored : s.credentialsById.get? credential.credentialId = some stored) :
    stored.signCounter = 0 ∨ stored.signCounter < credential.signCounter := by
  obtain ⟨⟨found, hfound, hadvances⟩, -⟩ := hjust
  have hsame : found.map WebAuthnCredential.signCounter = some stored.signCounter := by
    simpa [CeremonyStore.isCounterFound, hfound, hstored] using hallowed
  obtain ⟨before, rfl, hbefore⟩ := Option.map_eq_some_iff.mp hsame
  rw [← hbefore]
  exact hadvances before rfl

theorem CountersStay.save {credential : WebAuthnCredential}
    (hjust : CounterJustified i s (.saveCredential credential))
    (hallowed : s.isCounterFound i credential.credentialId = true) :
    CountersStay s (s.saveCredential i credential) := by
  intro credentialId stored hstored
  rw [credentialsById_saved]
  split_ifs with hid
  · subst hid
    refine ⟨credential, rfl, ?_⟩
    rcases counter_le_of_save hjust hallowed hstored with hzero | hlt
    · omega
    · exact hlt.le
  · exact ⟨stored, hstored, le_rfl⟩

/-- Such a save keeps the law. -/
theorem CountersRise.save (h : CountersRise s) {credential : WebAuthnCredential}
    (hjust : CounterJustified i s (.saveCredential credential))
    (hallowed : s.isCounterFound i credential.credentialId = true) :
    CountersRise (s.saveCredential i credential) := by
  have hsame : (s.saveCredential i credential).savedCounters credential.credentialId =
      credential.signCounter :: s.savedCounters credential.credentialId :=
    List.filterMap_cons_some (if_pos rfl)
  have hothers : ∀ credentialId, credential.credentialId ≠ credentialId →
      (s.saveCredential i credential).savedCounters credentialId =
        s.savedCounters credentialId := fun credentialId hid =>
    List.filterMap_cons_none (if_neg hid)
  constructor
  · intro credentialId
    by_cases hid : credential.credentialId = credentialId
    · subst hid
      rw [hsame]
      refine List.pairwise_cons.mpr ⟨fun counter hmem => ?_, h.advancing _⟩
      obtain ⟨stored, hstored, hle⟩ := h.bounded _ counter hmem
      rw [Advances]
      rcases counter_le_of_save hjust hallowed hstored with hzero | hlt
      · omega
      · omega
    · rw [hothers credentialId hid]
      exact h.advancing credentialId
  · intro credentialId counter hmem
    by_cases hid : credential.credentialId = credentialId
    · subst hid
      rw [hsame] at hmem
      refine ⟨credential, credentialsById_saved.trans (if_pos rfl), ?_⟩
      rcases List.mem_cons.mp hmem with rfl | hmem
      · exact le_rfl
      · obtain ⟨stored, hstored, hle⟩ := h.bounded _ counter hmem
        rcases counter_le_of_save hjust hallowed hstored with hzero | hlt
        · omega
        · omega
    · rw [hothers credentialId hid] at hmem
      rw [credentialsById_saved, if_neg hid]
      exact h.bounded credentialId counter hmem
  · intro j counter saved hmem
    rcases List.mem_cons.mp hmem with heq | hmem
    · obtain ⟨rfl, hdeed⟩ := Prod.mk.inj heq
      obtain ⟨hpresented, rfl⟩ := CeremonyDeed.saved.inj hdeed
      exact hjust.2 counter hpresented.symm
    · exact h.presented j counter saved hmem

theorem isJournal_counterLaw : counterLaw.IsJournal CeremonyStore.serve :=
  fun _ _ _ _ _ _ => journal_of_serve

/-- Justified calls that find the counters untouched keep the law. -/
theorem keptBy_counterLaw :
    counterLaw.KeptBy CeremonyStore.serve CountersUntouched CounterJustified := by
  intro i s q ω r t hinv hjust hallowed hserve
  have hsame : t.credentialsById = s.credentialsById → CountersStay s t := by
    intro hcredentials credentialId credential hstored
    exact ⟨credential, hcredentials ▸ hstored, le_rfl⟩
  rcases serve_cases hserve with ⟨challenge, -, rfl⟩ | ⟨text, existing, -, -, rfl⟩ |
    ⟨credential, rfl, rfl⟩ | ⟨-, hcredentials, hjournal⟩
  · exact ⟨CountersRise.of_other hinv rfl (.inr ⟨_, rfl, by rintro _ _ ⟨⟩⟩), hsame rfl⟩
  · exact ⟨CountersRise.of_other hinv rfl (.inr ⟨_, rfl, by rintro _ _ ⟨⟩⟩), hsame rfl⟩
  · exact ⟨CountersRise.save hinv hjust hallowed, CountersStay.save hjust hallowed⟩
  · refine ⟨CountersRise.of_other (i := i) hinv hcredentials ?_, hsame hcredentials⟩
    rcases hjournal with hsame | ⟨deed, hdeed, hreading⟩
    · exact .inl hsame
    · exact .inr ⟨deed, hdeed, by rintro _ _ rfl; cases hreading⟩

end Law

/-! ## Walking through the operations -/

section Walk

variable {s : CeremonyStore} {i : ℕ} {α : Type} {deeds : List CeremonyDeed}

/-- The program keeps the law when the thread runs it after these deeds. -/
def KeepsCounters (i : ℕ) (p : CeremonyProgram α) (s : CeremonyStore) : Prop :=
  Safe counterLaw.contract CeremonyStore.serve CountersUntouched i (fun _ _ => True) p s

theorem keepsCounters_pure {a : α} : KeepsCounters i (pure a) s :=
  counterLaw.safe_ret rfl fun _ _ _ _ => trivial

/-- A call that saves no credential; the deeds of the thread stay, or one more is added. -/
theorem keepsCounters_ask {q : CeremonyRequest} (hq : ∀ credential, q ≠ .saveCredential credential)
    {f : q.Answer → CeremonyProgram α} (hknows : counterLaw.deedsOf i s = deeds)
    (h : ∀ t ω r u, CeremonyStore.serve i t q ω = some (r, u) → counterLaw.deedsOf i t = deeds →
      KeepsCounters i (f r) u) :
    KeepsCounters i (.call q f) s := by
  refine counterLaw.safe_call isJournal_counterLaw keptBy_counterLaw hknows ?_ ?_
  · intro t _ _ _
    cases q with
    | saveCredential credential => exact absurd rfl (hq credential)
    | _ => trivial
  · intro t ω r u _ _ hknows_t _ hserve _ _
    exact h t ω r u hserve hknows_t

/-- A save of a credential whose counter advances that of the one the thread has found. -/
theorem keepsCounters_saveCredential {credential : WebAuthnCredential}
    {found : Option WebAuthnCredential} {f : Unit → CeremonyProgram α}
    (hknows : counterLaw.deedsOf i s = deeds)
    (hfound : deeds.findSome? CeremonyDeed.found? = some found)
    (hadvances : ∀ before, found = some before → before.signCounter = 0 ∨
      before.signCounter < credential.signCounter)
    (hpresented : ∀ counter, deeds.findSome? CeremonyDeed.presented? = some counter →
      credential.signCounter = counter)
    (h : ∀ t, KeepsCounters i (f ()) t) :
    KeepsCounters i (CeremonyCalls.saveCredential credential >>= f) s := by
  refine counterLaw.safe_call (q := .saveCredential credential) isJournal_counterLaw
    keptBy_counterLaw hknows ?_ fun t ω r u _ _ _ _ _ _ _ => h u
  intro t _ _ hknows_t
  refine ⟨⟨found, (congrArg _ hknows_t).trans hfound, hadvances⟩, fun counter hcounter => ?_⟩
  exact hpresented counter ((congrArg _ hknows_t).symm.trans hcounter)

/-- A program that saves no credential keeps the law. -/
theorem keepsCounters_of_calls {p : CeremonyProgram α}
    (hp : p.Calls fun q => ∀ credential, q ≠ .saveCredential credential) : KeepsCounters i p s := by
  induction hp generalizing s with
  | ret a => exact keepsCounters_pure
  | call hq _ ih => exact keepsCounters_ask hq rfl fun _ _ r _ _ _ => ih r

/-- Reading the time. -/
theorem keepsCounters_readNow {given : Option ℤ} {f : ℤ → CeremonyProgram α}
    (hnone : s.presentedTo i = none)
    (h : ∀ t now, t.presentedTo i = none → KeepsCounters i (f now) t) :
    KeepsCounters i (readNow given >>= f) s := by
  cases given with
  | some now => exact h s now hnone
  | none =>
    refine keepsCounters_ask (q := .now) (by rintro _ ⟨⟩) rfl fun t ω r u hserve hsame => ?_
    cases ω <;> cases hserve
    refine h _ _ ?_
    have hdeeds := JournalLaw.deedsOf_of_deed (J := counterLaw) (i := i) (s := t)
      (t := t.note i (.readTime r)) rfl hsame
    exact (congrArg (List.findSome? CeremonyDeed.presented?) hdeeds).trans hnone

/-- Redeeming a challenge. -/
theorem keepsCounters_redeemChallenge {ceremonyType : WebAuthnCeremonyType}
    {texts : ChallengeTexts} {userId text : String} {now : ℤ}
    {rest : CeremonyProgram (CeremonyResult α)} (hnone : s.presentedTo i = none)
    (h : ∀ t, t.presentedTo i = none → KeepsCounters i rest t) :
    KeepsCounters i (redeemChallenge ceremonyType texts userId text now rest) s := by
  refine keepsCounters_ask (q := .findByChallenge text) (by rintro _ ⟨⟩) rfl ?_
  intro t ω r u hserve hsame
  cases ω <;> cases hserve
  cases t.challengesByValue.get? text with
  | none => exact keepsCounters_pure
  | some challenge =>
    change KeepsCounters i (if challenge.userId ≠ userId ∨ challenge.ceremonyType ≠ ceremonyType
      then _ else if challenge.isExpired now then _ else if challenge.used then _ else _) t
    split_ifs
    · exact keepsCounters_pure
    · exact keepsCounters_pure
    · exact keepsCounters_pure
    refine keepsCounters_ask (q := .consume text) (by rintro _ ⟨⟩) hsame ?_
    intro v ω r w hserve hsame'
    rcases consume_cases hserve with ⟨-, rfl⟩ | ⟨existing, -, -, rfl, rfl⟩
    · exact keepsCounters_pure
    · refine h _ ?_
      have hdeeds := JournalLaw.deedsOf_of_deed (J := counterLaw) (i := i) (s := v)
        (t := v.redeemed i existing) rfl hsame'
      exact (congrArg (List.findSome? CeremonyDeed.presented?) hdeeds).trans hnone

/-- Looking for a credential. -/
theorem keepsCounters_findByCredentialId {credentialId : String}
    {f : Option WebAuthnCredential → CeremonyProgram α} (hknows : counterLaw.deedsOf i s = deeds)
    (h : ∀ t found, counterLaw.deedsOf i t = .found found :: deeds → KeepsCounters i (f found) t) :
    KeepsCounters i (CeremonyCalls.findByCredentialId credentialId >>= f) s := by
  refine keepsCounters_ask (q := .findByCredentialId credentialId) (by rintro _ ⟨⟩) hknows ?_
  intro t ω r u hserve hknows_t
  cases ω <;> cases hserve
  exact h _ _ (JournalLaw.deedsOf_of_deed rfl hknows_t)

/-- A call that adds no deed. -/
theorem keepsCounters_plain {q : CeremonyRequest}
    (hq : ∀ credential, q ≠ .saveCredential credential)
    (hplain : ∀ t ω r u, CeremonyStore.serve i t q ω = some (r, u) → u.journal = t.journal)
    {f : q.Answer → CeremonyProgram α} (hknows : counterLaw.deedsOf i s = deeds)
    (h : ∀ u r, counterLaw.deedsOf i u = deeds → KeepsCounters i (f r) u) :
    KeepsCounters i (.call q f) s :=
  keepsCounters_ask hq hknows fun t ω r u hserve hknows_t =>
    h u r ((JournalLaw.deedsOf_of_same (hplain t ω r u hserve)).trans hknows_t)

/-- Registering. -/
theorem keepsCounters_register {config : CeremonyConfig}
    {command : RegisterWebAuthnCredentialCommand} (hnone : s.presentedTo i = none) :
    KeepsCounters i (RegisterWebAuthnCredential.execute config command) s := by
  refine keepsCounters_readNow hnone fun t now hnone => ?_
  split
  · exact keepsCounters_pure
  refine keepsCounters_redeemChallenge hnone fun t hnone => ?_
  refine keepsCounters_plain (by rintro _ ⟨⟩) ?_ rfl fun u answer hknows => ?_
  · rintro t ω r u hserve
    cases ω <;> cases hserve
    rfl
  rcases answer with thrown | (error | verified)
  · exact keepsCounters_pure
  · exact keepsCounters_pure
  refine keepsCounters_findByCredentialId hknows fun v found hknows => ?_
  cases found with
  | some existing => exact keepsCounters_pure
  | none =>
    refine keepsCounters_plain (by rintro _ ⟨⟩) ?_ hknows fun w methodId hknows => ?_
    · rintro t ω r u hserve
      cases ω <;> cases hserve
      rfl
    refine keepsCounters_plain (by rintro _ ⟨⟩) ?_ hknows fun x _ hknows => ?_
    · rintro t ω r u hserve
      cases ω <;> cases hserve
      rfl
    refine keepsCounters_plain (by rintro _ ⟨⟩) ?_ hknows fun y id hknows => ?_
    · rintro t ω r u hserve
      cases ω <;> cases hserve
      rfl
    refine keepsCounters_saveCredential hknows rfl (by rintro _ ⟨⟩) ?_ fun _ => keepsCounters_pure
    intro counter hcounter
    rw [show (CeremonyDeed.found none :: counterLaw.deedsOf i t).findSome?
      CeremonyDeed.presented? = none from hnone] at hcounter
    cases hcounter

/-- Recording a failed attempt. -/
theorem keepsCounters_fail {mfaMethod : MfaMethod} {now : ℤ} {error : ValidationError} :
    KeepsCounters i (VerifyWebAuthnAssertion.fail mfaMethod now error) s := by
  apply keepsCounters_of_calls
  exact .call (by rintro _ ⟨⟩) fun _ => .ret _

/-- Comparing the counter that was presented with the one that was found. -/
theorem keepsCounters_detectClone {userId : String} {credential : WebAuthnCredential}
    {mfaMethod : MfaMethod} {verifiedAssertion : VerifiedAssertion} {now : ℤ}
    (hknows : counterLaw.deedsOf i s =
      .presented verifiedAssertion.signCounter :: .found (some credential) :: deeds) :
    KeepsCounters i (VerifyWebAuthnAssertion.detectClone userId credential mfaMethod
      verifiedAssertion now) s := by
  rw [VerifyWebAuthnAssertion.detectClone]
  split
  · refine keepsCounters_ask (q := .publish _) (by rintro _ ⟨⟩) hknows ?_
    intro t ω answer u _ _
    cases answer with
    | error thrown => exact keepsCounters_pure
    | ok value => exact keepsCounters_fail
  · rename_i hsuspects
    refine keepsCounters_saveCredential hknows rfl ?_ ?_ fun t => ?_
    · intro before hbefore
      obtain rfl : credential = before := Option.some.inj hbefore
      have hnot : ¬(0 < credential.signCounter ∧
          verifiedAssertion.signCounter ≤ credential.signCounter) := by
        simpa [VerifyWebAuthnAssertion.suspectsClone] using hsuspects
      change credential.signCounter = 0 ∨ credential.signCounter < verifiedAssertion.signCounter
      omega
    · intro counter hcounter
      exact Option.some.inj hcounter
    · cases mfaMethod.recordUse now with
      | error thrown => exact keepsCounters_pure
      | ok activeMethod =>
        apply keepsCounters_of_calls
        exact .call (by rintro _ ⟨⟩) fun _ => .ret _

/-- Authenticating. -/
theorem keepsCounters_authenticate {config : CeremonyConfig}
    {command : VerifyWebAuthnAssertionCommand} (hnone : s.presentedTo i = none) :
    KeepsCounters i (VerifyWebAuthnAssertion.execute config command) s := by
  refine keepsCounters_readNow hnone fun t now hnone => ?_
  split
  · exact keepsCounters_pure
  refine keepsCounters_redeemChallenge hnone fun t hnone => ?_
  refine keepsCounters_findByCredentialId rfl fun u found hknows => ?_
  cases found with
  | none => exact keepsCounters_pure
  | some credential =>
    change KeepsCounters i (if credential.userId ≠ command.userId then _ else _) u
    split
    · exact keepsCounters_pure
    refine keepsCounters_plain (by rintro _ ⟨⟩) ?_ hknows fun v method hknows => ?_
    · rintro t ω r u hserve
      cases ω <;> cases hserve
      rfl
    cases method with
    | none => exact keepsCounters_pure
    | some mfaMethod =>
      change KeepsCounters i (if mfaMethod.status ≠ .active then _ else
        if mfaMethod.isLockedAt now then _ else _) v
      split_ifs
      · exact keepsCounters_pure
      · exact keepsCounters_pure
      refine keepsCounters_ask (by rintro _ ⟨⟩) hknows fun w ω answer x hserve hknows => ?_
      cases ω with
      | verified given =>
        rcases given with thrown | (error | verifiedAssertion)
        · cases hserve
          exact keepsCounters_pure
        · cases hserve
          exact keepsCounters_fail
        · cases hserve
          exact keepsCounters_detectClone (JournalLaw.deedsOf_of_deed rfl hknows)
      | _ => cases hserve

/-- Every operation keeps the law. -/
theorem keepsCounters_operation {config : WebAuthnCeremonyType → CeremonyConfig}
    {operation : CeremonyOperation} (hidle : counterLaw.deedsOf i s = []) :
    KeepsCounters i (operation.execute config) s := by
  have hnone : s.presentedTo i = none :=
    congrArg (List.findSome? CeremonyDeed.presented?) hidle
  cases operation with
  | issue ceremonyType command =>
    refine keepsCounters_readNow hnone fun t now _ => ?_
    split
    · exact keepsCounters_pure
    · apply keepsCounters_of_calls
      exact .call (by rintro _ ⟨⟩) fun _ => .call (by rintro _ ⟨⟩) fun _ =>
        .call (by rintro _ ⟨⟩) fun _ => .ret _
  | register command => exact keepsCounters_register hnone
  | authenticate command => exact keepsCounters_authenticate hnone

end Walk

/-! ## Runs -/

section Runs

variable {config : WebAuthnCeremonyType → CeremonyConfig} {s : CeremonyStore} {P : CeremonyPool}

theorem sound_counters (hjournal : s.journal = [])
    (hrun : RunWhile (CeremonyPool.step config) (fun P e => P.Allows CountersUntouched e)
      (Pool.initial s) P) :
    Sound counterLaw.contract CeremonyStore.serve CountersUntouched
      (fun i t => counterLaw.deedsOf i t = []) (fun _ _ _ _ _ => True) P := by
  have hinitial : CountersRise s :=
    ⟨by simp [CeremonyStore.savedCounters, hjournal],
      by simp [CeremonyStore.savedCounters, hjournal], by simp [hjournal]⟩
  exact counterLaw.sound_of_run (fun _ _ _ _ hidle => keepsCounters_operation hidle) hinitial
    hjournal hrun

/-- While every save finds the counter untouched, no counter is taken back between any two moments
of a run. -/
theorem counters_stay (hjournal : s.journal = [])
    (hrun : RunWhile (CeremonyPool.step config) (fun P e => P.Allows CountersUntouched e)
      (Pool.initial s) P) {P' : CeremonyPool}
    (hafter : RunWhile (CeremonyPool.step config) (fun P e => P.Allows CountersUntouched e) P P') :
    CountersStay P.store P'.store := by
  have hsound := sound_counters hjournal hrun
  have hbody : ∀ i (operation : CeremonyOperation) t, CountersRise t →
      counterLaw.deedsOf i t = [] → KeepsCounters i (operation.execute config) t :=
    fun _ _ _ _ hidle => keepsCounters_operation hidle
  have hrely : ∀ i t u, counterLaw.contract.rely i t u → CountersStay t u :=
    fun _ _ _ htu => htu.2
  have hidle : ∀ i t u, counterLaw.contract.rely i t u → counterLaw.deedsOf i t = [] →
      counterLaw.deedsOf i u = [] := fun _ _ _ htu hidle => htu.1.trans hidle
  exact (hsound.relates_of_run counterLaw.order_refl counterLaw.order_trans hrely hidle hbody
    hafter).1

/-- While every save finds the counter untouched, the counters of accepted assertions advance. -/
theorem accepted_counters_advance (hjournal : s.journal = [])
    (hrun : RunWhile (CeremonyPool.step config) (fun P e => P.Allows CountersUntouched e)
      (Pool.initial s) P) : AcceptedAdvance P := by
  intro credentialId
  have hinv : CountersRise P.store := (sound_counters hjournal hrun).inv
  -- the counter of an accepted assertion is one that was saved
  have hsaved : ∀ entry ∈ P.store.journal, ∀ counter,
      P.acceptedCounter credentialId entry = some counter →
        entry.2.savedCounter credentialId = some counter := by
    rintro ⟨i, deed⟩ hentry counter haccepted
    cases deed with
    | saved presented credential =>
      rw [CeremonyPool.acceptedCounter] at haccepted
      split_ifs at haccepted with hcond
      subst haccepted
      have hcounter := hinv.presented i counter credential hentry
      exact hcounter ▸ if_pos hcond.1
    | _ => cases haccepted
  have hadvancing := List.pairwise_filterMap.mp (hinv.advancing credentialId)
  refine List.pairwise_filterMap.mpr (hadvancing.imp_of_mem ?_)
  intro later earlier hlater hearlier hadvance counter hcounter counter' hcounter'
  exact hadvance counter (hsaved later hlater counter hcounter) counter'
    (hsaved earlier hearlier counter' hcounter')

end Runs

/-- Threads 3 and 4 find the credential at the same time, and 3 saves first. -/
def authenticatingAtOnce (first second : ℕ) : List (PoolEvent CeremonyOperation CeremonyInput) :=
  [.start 3 (.authenticate (sampleAssertion "nonce")),
    .start 4 (.authenticate (sampleAssertion "other")), .answer 3 .served, .answer 4 .served,
    .answer 3 .served, .answer 4 .served, .answer 3 .served, .answer 4 .served,
    .answer 3 .served, .answer 4 .served, .answer 3 (verifiedWith first),
    .answer 4 (verifiedWith second), .answer 3 .served, .answer 3 .served]

/-- The challenges of both are issued, and the first has saved its counter. -/
def firstCounterSaved : CeremonyPool :=
  (exec (CeremonyPool.step sampleCeremonyConfig) (Pool.initial sampleCeremonies)
    (issuing 1 "nonce" ++ issuing 2 "other" ++ authenticatingAtOnce 7 6)).get (by decide +kernel)

/-- Then the second has saved its counter. -/
def secondCounterSaved : CeremonyPool :=
  (exec (CeremonyPool.step sampleCeremonyConfig) firstCounterSaved
    [.answer 4 .served, .answer 4 .served]).get (by decide +kernel)

/-- Of two executions at once, the later save can take the counter back. -/
theorem counter_taken_back :
    ∃ P P', Run (CeremonyPool.step sampleCeremonyConfig) (Pool.initial sampleCeremonies) P ∧
      Run (CeremonyPool.step sampleCeremonyConfig) P P' ∧ ¬CountersStay P.store P'.store := by
  refine ⟨firstCounterSaved, secondCounterSaved, runWhile_get _, runWhile_get _, fun hstay => ?_⟩
  have hbefore : (firstCounterSaved.store.credentialsById.get? "key").map
      WebAuthnCredential.signCounter = some 7 := by decide +kernel
  have hafter : (secondCounterSaved.store.credentialsById.get? "key").map
      WebAuthnCredential.signCounter = some 6 := by decide +kernel
  obtain ⟨credential, hcredential, hseven⟩ := Option.map_eq_some_iff.mp hbefore
  obtain ⟨credential', hcredential', hle⟩ := hstay "key" credential hcredential
  rw [hcredential'] at hafter
  have hsix : credential'.signCounter = 6 := Option.some.inj hafter
  omega

/-- Thread `i` authenticates without others. -/
def authenticating (i : ℕ) (text : String) (signCounter : ℕ) :
    List (PoolEvent CeremonyOperation CeremonyInput) :=
  [.start i (.authenticate (sampleAssertion text)), .answer i .served, .answer i .served,
    .answer i .served, .answer i .served, .answer i (verifiedWith signCounter),
    .answer i .served, .answer i .served]

/-- The first of two assertions in a row is accepted. -/
def firstInARow : CeremonyPool :=
  (execWhile (CeremonyPool.step sampleCeremonyConfig) (fun P e => P.Allows CountersUntouched e)
    (Pool.initial sampleCeremonies)
    (issuing 1 "nonce" ++ issuing 2 "other" ++ authenticating 3 "nonce" 6)).get (by decide +kernel)

/-- Then the second is accepted. -/
def secondInARow : CeremonyPool :=
  (execWhile (CeremonyPool.step sampleCeremonyConfig) (fun P e => P.Allows CountersUntouched e)
    firstInARow (authenticating 4 "other" 9)).get (by decide +kernel)

/-- The second assertion takes the counter on. -/
theorem counters_stay_inARow : CountersStay firstInARow.store secondInARow.store :=
  counters_stay rfl (runWhile_get _) (runWhile_get _)

/-- Both are accepted, with counters that advance. -/
theorem accepted_counters_advance_inARow :
    AcceptedAdvance secondInARow ∧ secondInARow.acceptedCounters "key" = [9, 6] :=
  ⟨accepted_counters_advance rfl ((runWhile_get _).trans (runWhile_get _)), by decide +kernel⟩

end Verixa.Mfa
