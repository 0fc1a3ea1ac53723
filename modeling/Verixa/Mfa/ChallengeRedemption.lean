import Verixa.Mfa.WebAuthnCeremonies

/-!
# Challenges redeem one ceremony

Registrations and authentications, with the issuing of challenges for both, in any interleaving.
While every challenge that is issued is one that is not stored yet, a challenge is redeemed at most
once, and a ceremony that completes has redeemed one that was issued for its user and its kind and
had not expired.

A stored challenge changes in being used only.  So what an execution has checked of a challenge
still holds when it consumes the challenge, although these are two calls.
-/

namespace Verixa.Mfa

open Concurrency

/-! ## What is redeemed -/

/-- The challenge of a text is consumed. -/
def CeremonyDeed.redeems (text : String) : CeremonyDeed → Bool
  | .consumed challenge => decide (challenge.challenge = text)
  | _ => false

/-- The threads that have consumed the challenge of a text. -/
def CeremonyStore.redeemers (s : CeremonyStore) (text : String) : List ℕ :=
  (s.journal.filter fun entry => entry.2.redeems text).map Prod.fst

/-- A challenge that is issued is one that is not stored yet. -/
def FreshChallenges (_ : ℕ) (s : CeremonyStore) (q : CeremonyRequest) (_ : CeremonyInput) : Prop :=
  match q with
  | .saveChallenge challenge => s.challengesByValue.get? challenge.challenge = none
  | _ => True

instance (i : ℕ) (s : CeremonyStore) (q : CeremonyRequest) (ω : CeremonyInput) :
    Decidable (FreshChallenges i s q ω) :=
  match q with
  | .saveChallenge _ => inferInstanceAs (Decidable (_ = none))
  | .now | .createId | .randomChallenge | .findByChallenge _ | .consume _ | .findByCredentialId _
  | .findMethodById _ | .verifyAttestation _ | .verifyAssertion _ | .publish _ | .saveMethod _
  | .saveCredential _ => isTrue trivial

/-- The challenge was issued since the store `s₀`, or is stored there. -/
def Known (s₀ s : CeremonyStore) (challenge : WebAuthnChallenge) : Prop :=
  (∃ i, (i, .issued challenge) ∈ s.journal) ∨
    s₀.challengesByValue.get? challenge.challenge = some challenge

/-! ## Completed ceremonies -/

/-- What a ceremony says for the challenge that it redeems. -/
structure Ceremony where
  ceremonyType : WebAuthnCeremonyType
  userId : String
  challenge : String
  now : Option ℤ
  deriving DecidableEq

/-- The ceremony that an operation completes, when it is one. -/
def CeremonyOperation.ceremony? : CeremonyOperation → Option Ceremony
  | .issue _ _ => none
  | .register command => some ⟨.registration, command.userId, command.challenge, command.now⟩
  | .authenticate command =>
    some ⟨.authentication, command.userId, command.challenge, command.now⟩

/-- The operation has returned a value, not an error. -/
def CeremonyOperation.succeeds : (operation : CeremonyOperation) → operation.Returns → Bool
  | .issue _ _, .ok (.ok _) => true
  | .register _, .ok (.ok _) => true
  | .authenticate _, .ok (.ok _) => true
  | _, _ => false

/-- The thread has consumed a challenge of a text, for a user and a ceremony, that had not expired
at a time. -/
def Redeemed (i : ℕ) (ceremonyType : WebAuthnCeremonyType) (userId text : String) (now : ℤ)
    (s : CeremonyStore) : Prop :=
  ∃ challenge, (i, .consumed challenge) ∈ s.journal ∧ challenge.challenge = text ∧
    challenge.userId = userId ∧ challenge.ceremonyType = ceremonyType ∧
    challenge.isExpired now = false

/-- The time at which the thread does its work: it is given or read from the clock. -/
def WorksAt (i : ℕ) (given : Option ℤ) (s : CeremonyStore) (now : ℤ) : Prop :=
  given = some now ∨ (i, .readTime now) ∈ s.journal

/-- An operation that completes a ceremony has redeemed a challenge for it. -/
def AnswersChallenge {α : Type} (i : ℕ) (ceremonyType : WebAuthnCeremonyType)
    (userId text : String) (given : Option ℤ) (s : CeremonyStore) (result : CeremonyResult α) :
    Prop :=
  (∃ value, result = .ok (.ok value)) →
    ∃ now, WorksAt i given s now ∧ Redeemed i ceremonyType userId text now s

/-- The ceremony that a thread has completed. -/
def CeremonyPool.completed (P : CeremonyPool) (i : ℕ) : Option Ceremony :=
  match P.returned i with
  | some ⟨operation, result⟩ => if operation.succeeds result then operation.ceremony? else none
  | none => none

/-- A completed ceremony has redeemed a challenge that was issued for its user and its kind since
the store `s₀`, or is stored there, and that had not expired. -/
def CompletedAnswer (s₀ : CeremonyStore) (P : CeremonyPool) : Prop :=
  ∀ i ceremony, P.completed i = some ceremony →
    ∃ challenge now, challenge.challenge = ceremony.challenge ∧
      challenge.userId = ceremony.userId ∧ challenge.ceremonyType = ceremony.ceremonyType ∧
      WorksAt i ceremony.now P.store now ∧ challenge.isExpired now = false ∧
      Known s₀ P.store challenge

/-- No two threads complete a ceremony with one challenge. -/
def CompletedApart (P : CeremonyPool) : Prop :=
  ∀ i j ceremony ceremony', P.completed i = some ceremony → P.completed j = some ceremony' →
    ceremony.challenge = ceremony'.challenge → i = j

/-! ## The law of challenges -/

/-- A challenge is redeemed at most once, is known, and is marked used. -/
structure RedeemsOnce (s₀ s : CeremonyStore) : Prop where
  once : ∀ text, (s.redeemers text).length ≤ 1
  used : ∀ i challenge, (i, .consumed challenge) ∈ s.journal →
    ∃ stored, s.challengesByValue.get? challenge.challenge = some stored ∧ stored.used = true
  known : ∀ i challenge, (i, .consumed challenge) ∈ s.journal → Known s₀ s challenge
  stored : ∀ text challenge, s.challengesByValue.get? text = some challenge →
    challenge.used = false → Known s₀ s challenge

/-- The journal grows, and a stored challenge stays but for being used. -/
structure ChallengesStay (s t : CeremonyStore) : Prop where
  journal : s.journal <:+ t.journal
  stays : ∀ text challenge, s.challengesByValue.get? text = some challenge →
    t.challengesByValue.get? text = some challenge ∨
      t.challengesByValue.get? text = some { challenge with used := true }

theorem ChallengesStay.refl (s : CeremonyStore) : ChallengesStay s s :=
  ⟨List.suffix_rfl, fun _ _ h => .inl h⟩

theorem ChallengesStay.trans {s t u : CeremonyStore} (hst : ChallengesStay s t)
    (htu : ChallengesStay t u) : ChallengesStay s u := by
  refine ⟨hst.journal.trans htu.journal, fun text challenge hstored => ?_⟩
  rcases hst.stays text challenge hstored with hsame | hused
  · exact htu.stays text challenge hsame
  · rcases htu.stays text _ hused with h | h
    · exact .inr h
    · exact .inr h

/-- The law of challenges, from the store `s₀` on. -/
def challengeLaw (s₀ : CeremonyStore) : JournalLaw CeremonyStore CeremonyDeed where
  journal := CeremonyStore.journal
  inv := RedeemsOnce s₀
  order := ChallengesStay
  order_refl := ChallengesStay.refl
  order_trans _ _ _ := ChallengesStay.trans

section Law

variable {s₀ s t : CeremonyStore} {i : ℕ}

theorem Known.mono {challenge : WebAuthnChallenge} (h : Known s₀ s challenge)
    (hjournal : s.journal <:+ t.journal) : Known s₀ t challenge := by
  rcases h with ⟨i, hissued⟩ | hstored
  · exact .inl ⟨i, hjournal.subset hissued⟩
  · exact .inr hstored

/-- The law looks at the challenges, and at which were issued and consumed. -/
theorem RedeemsOnce.of_other (h : RedeemsOnce s₀ s)
    (hchallenges : t.challengesByValue = s.challengesByValue)
    (hjournal : t.journal = s.journal ∨ ∃ deed, t.journal = (i, deed) :: s.journal ∧
      ∀ challenge, deed ≠ .consumed challenge) : RedeemsOnce s₀ t := by
  have hsuffix : s.journal <:+ t.journal := by
    rcases hjournal with hsame | ⟨deed, hdeed, -⟩
    · rw [hsame]
    · rw [hdeed]
      exact List.suffix_cons _ _
  have hconsumed : ∀ {j challenge}, (j, .consumed challenge) ∈ t.journal →
      (j, .consumed challenge) ∈ s.journal := by
    intro j challenge hmem
    rcases hjournal with hsame | ⟨deed, hdeed, hother⟩
    · rwa [hsame] at hmem
    · rw [hdeed] at hmem
      rcases List.mem_cons.mp hmem with heq | hmem
      · exact absurd (Prod.mk.inj heq).2.symm (hother challenge)
      · exact hmem
  have hredeemers : ∀ text, t.redeemers text = s.redeemers text := by
    intro text
    rcases hjournal with hsame | ⟨deed, hdeed, hother⟩
    · rw [CeremonyStore.redeemers, hsame, CeremonyStore.redeemers]
    · have hnot : deed.redeems text = false := by
        cases deed with
        | consumed challenge => exact absurd rfl (hother challenge)
        | _ => rfl
      rw [CeremonyStore.redeemers, hdeed, List.filter_cons_of_neg (by simp [hnot]),
        CeremonyStore.redeemers]
  constructor
  · intro text
    rw [hredeemers]
    exact h.once text
  · intro j challenge hmem
    rw [hchallenges]
    exact h.used j challenge (hconsumed hmem)
  · intro j challenge hmem
    exact (h.known j challenge (hconsumed hmem)).mono hsuffix
  · intro text challenge hstored hunused
    rw [hchallenges] at hstored
    exact (h.stored text challenge hstored hunused).mono hsuffix

/-- Other calls leave the challenges alone. -/
theorem ChallengesStay.of_other (hchallenges : t.challengesByValue = s.challengesByValue)
    (hjournal : s.journal <:+ t.journal) : ChallengesStay s t :=
  ⟨hjournal, fun _ _ hstored => .inl (hchallenges ▸ hstored)⟩

/-- What is stored under a text after a challenge was put there. -/
theorem challengesByValue_put {challenge : WebAuthnChallenge} {text : String} :
    (s.challengesByValue.put challenge).get? text =
      if challenge.challenge = text then some challenge else s.challengesByValue.get? text :=
  KeyedMap.get?_put _ _ _

/-- A challenge that is not stored yet has not been redeemed. -/
theorem RedeemsOnce.redeemers_eq_nil (h : RedeemsOnce s₀ s) {text : String}
    (hunused : ∀ stored, s.challengesByValue.get? text = some stored → stored.used = false) :
    s.redeemers text = [] := by
  rw [CeremonyStore.redeemers, List.map_eq_nil_iff, List.filter_eq_nil_iff]
  rintro ⟨j, deed⟩ hmem hredeems
  cases deed with
  | consumed challenge =>
    obtain ⟨stored, hstored, hused⟩ := h.used j challenge hmem
    have htext : challenge.challenge = text := by simpa [CeremonyDeed.redeems] using hredeems
    rw [htext] at hstored
    rw [hunused stored hstored] at hused
    cases hused
  | _ => simp [CeremonyDeed.redeems] at hredeems

/-- Issuing a challenge that is not stored yet keeps the law. -/
theorem RedeemsOnce.saveChallenge (h : RedeemsOnce s₀ s) {challenge : WebAuthnChallenge}
    (hfresh : s.challengesByValue.get? challenge.challenge = none) :
    RedeemsOnce s₀ (s.saveChallenge i challenge) := by
  have hsuffix : s.journal <:+ (s.saveChallenge i challenge).journal := List.suffix_cons _ _
  have hconsumed : ∀ {j consumed}, (j, .consumed consumed) ∈ (s.saveChallenge i challenge).journal →
      (j, .consumed consumed) ∈ s.journal := by
    intro j consumed hmem
    rcases List.mem_cons.mp hmem with heq | hmem
    · cases heq
    · exact hmem
  constructor
  · exact h.once
  · intro j consumed hmem
    obtain ⟨stored, hstored, hused⟩ := h.used j consumed (hconsumed hmem)
    refine ⟨stored, ?_, hused⟩
    change (s.challengesByValue.put challenge).get? _ = _
    rw [challengesByValue_put, if_neg, hstored]
    intro heq
    rw [heq, hstored] at hfresh
    cases hfresh
  · intro j consumed hmem
    exact (h.known j consumed (hconsumed hmem)).mono hsuffix
  · intro text stored hstored hunused
    change (s.challengesByValue.put challenge).get? _ = _ at hstored
    rw [challengesByValue_put] at hstored
    split_ifs at hstored with htext
    · obtain rfl := Option.some.inj hstored
      exact .inl ⟨i, List.mem_cons_self⟩
    · exact (h.stored text stored hstored hunused).mono hsuffix

theorem ChallengesStay.saveChallenge {challenge : WebAuthnChallenge}
    (hfresh : s.challengesByValue.get? challenge.challenge = none) :
    ChallengesStay s (s.saveChallenge i challenge) := by
  refine ⟨List.suffix_cons _ _, fun text stored hstored => .inl ?_⟩
  change (s.challengesByValue.put challenge).get? _ = _
  rw [challengesByValue_put, if_neg, hstored]
  rintro rfl
  rw [hfresh] at hstored
  cases hstored

/-- Consuming an unused challenge keeps the law. -/
theorem RedeemsOnce.consume (h : RedeemsOnce s₀ s) {text : String}
    {existing : WebAuthnChallenge} (hexisting : s.challengesByValue.get? text = some existing)
    (hunused : existing.used = false) : RedeemsOnce s₀ (s.redeemed i existing) := by
  have hkey : existing.challenge = text := KeyedMap.key_of_get? hexisting
  subst hkey
  have hsuffix : s.journal <:+ (s.redeemed i existing).journal := List.suffix_cons _ _
  have hget : ∀ text, (s.redeemed i existing).challengesByValue.get? text =
      if existing.challenge = text then some { existing with used := true }
      else s.challengesByValue.get? text := fun text => challengesByValue_put
  have hknown : Known s₀ s existing := h.stored _ existing hexisting hunused
  constructor
  · intro text
    by_cases htext : existing.challenge = text
    · subst htext
      have hnone : s.redeemers existing.challenge = [] := by
        refine h.redeemers_eq_nil fun stored hstored => ?_
        rw [hexisting] at hstored
        exact Option.some.inj hstored ▸ hunused
      have hone : (s.redeemed i existing).redeemers existing.challenge =
          i :: s.redeemers existing.challenge := by
        change ((((i, CeremonyDeed.consumed existing) :: s.journal).filter _).map Prod.fst) = _
        rw [List.filter_cons_of_pos (by simp [CeremonyDeed.redeems])]
        rfl
      rw [hone, hnone]
      simp
    · have hsame : (s.redeemed i existing).redeemers text = s.redeemers text := by
        change ((((i, CeremonyDeed.consumed existing) :: s.journal).filter _).map Prod.fst) = _
        rw [List.filter_cons_of_neg (by simp [CeremonyDeed.redeems, htext])]
        rfl
      rw [hsame]
      exact h.once text
  · intro j consumed hmem
    rw [hget]
    split_ifs with htext
    · exact ⟨_, rfl, rfl⟩
    · rcases List.mem_cons.mp hmem with heq | hmem
      · obtain rfl : consumed = existing := by
          cases heq
          rfl
        exact absurd rfl htext
      · exact h.used j consumed hmem
  · intro j consumed hmem
    rcases List.mem_cons.mp hmem with heq | hmem
    · obtain rfl : consumed = existing := by
        cases heq
        rfl
      exact hknown.mono hsuffix
    · exact (h.known j consumed hmem).mono hsuffix
  · intro text stored hstored hunused'
    rw [hget] at hstored
    split_ifs at hstored with htext
    · rw [← Option.some.inj hstored] at hunused'
      cases hunused'
    · exact (h.stored text stored hstored hunused').mono hsuffix

theorem ChallengesStay.consume {text : String} {existing : WebAuthnChallenge}
    (hexisting : s.challengesByValue.get? text = some existing) :
    ChallengesStay s (s.redeemed i existing) := by
  refine ⟨List.suffix_cons _ _, fun other stored hstored => ?_⟩
  change (s.challengesByValue.put _).get? _ = _ ∨ (s.challengesByValue.put _).get? _ = _
  rw [challengesByValue_put]
  split_ifs with htext
  · have hsame : existing = stored := by
      have hkey : existing.challenge = text := KeyedMap.key_of_get? hexisting
      rw [← htext, hkey, hexisting] at hstored
      exact Option.some.inj hstored
    exact .inr (by rw [hsame])
  · exact .inl hstored

theorem isJournal_challengeLaw : (challengeLaw s₀).IsJournal CeremonyStore.serve :=
  fun _ _ _ _ _ _ => journal_of_serve

/-- Every call keeps the law, if the challenges that are issued are fresh. -/
theorem keptBy_challengeLaw :
    (challengeLaw s₀).KeptBy CeremonyStore.serve FreshChallenges fun _ _ _ => True := by
  intro i s q ω r t hinv _ hallowed hserve
  rcases serve_cases hserve with ⟨challenge, rfl, rfl⟩ | ⟨text, existing, hexisting, hunused, rfl⟩ |
    ⟨credential, -, rfl⟩ | ⟨hchallenges, -, hjournal⟩
  · exact ⟨RedeemsOnce.saveChallenge hinv hallowed, ChallengesStay.saveChallenge hallowed⟩
  · exact ⟨RedeemsOnce.consume hinv hexisting hunused, ChallengesStay.consume hexisting⟩
  · exact ⟨RedeemsOnce.of_other hinv rfl (.inr ⟨_, rfl, by rintro _ ⟨⟩⟩),
      .of_other rfl (List.suffix_cons _ _)⟩
  · rcases hjournal with hsame | ⟨deed, hdeed, hreading⟩
    · exact ⟨RedeemsOnce.of_other (i := i) hinv hchallenges (.inl hsame),
        .of_other hchallenges (hsame ▸ List.suffix_rfl)⟩
    · exact ⟨RedeemsOnce.of_other hinv hchallenges
          (.inr ⟨deed, hdeed, by rintro _ rfl; cases hreading⟩),
        .of_other hchallenges (hdeed ▸ List.suffix_cons _ _)⟩

end Law

/-! ## Walking through the operations -/

section Walk

variable {s₀ s : CeremonyStore} {i : ℕ} {ceremonyType : WebAuthnCeremonyType}
  {userId text : String} {given : Option ℤ} {now : ℤ} {α : Type}

/-- The calls of a program keep the law, whatever the program is. -/
theorem safe_keeping {held : CeremonyStore → Prop}
    (hstable : ∀ s t, ChallengesStay s t → held s → held t) (p : CeremonyProgram α)
    (h : held s) :
    Safe (challengeLaw s₀).contract CeremonyStore.serve FreshChallenges i (fun t _ => held t) p s :=
  (challengeLaw s₀).safe_of_stable isJournal_challengeLaw keptBy_challengeLaw hstable p h

/-- A refusal completes nothing. -/
theorem safe_refusal {result : CeremonyResult α} (hresult : ∀ value, result ≠ .ok (.ok value)) :
    Safe (challengeLaw s₀).contract CeremonyStore.serve FreshChallenges i
      (AnswersChallenge i ceremonyType userId text given) (pure result) s :=
  (challengeLaw s₀).safe_ret rfl fun _ _ _ _ hok => absurd hok.choose_spec (hresult _)

theorem WorksAt.mono {t : CeremonyStore} (h : WorksAt i given s now) (hst : ChallengesStay s t) :
    WorksAt i given t now := h.imp_right fun hmem => hst.journal.subset hmem

/-- Redeeming a challenge. -/
theorem safe_redeemChallenge {texts : ChallengeTexts} {rest : CeremonyProgram (CeremonyResult α)}
    (hnow : WorksAt i given s now) :
    Safe (challengeLaw s₀).contract CeremonyStore.serve FreshChallenges i
      (AnswersChallenge i ceremonyType userId text given)
      (redeemChallenge ceremonyType texts userId text now rest) s := by
  refine (challengeLaw s₀).safe_call (q := .findByChallenge text) isJournal_challengeLaw
    keptBy_challengeLaw rfl (fun _ _ _ _ => trivial) ?_
  intro t ω r u hst _ _ _ hserve _ _
  cases ω <;> cases hserve
  have hnow_t : WorksAt i given t now := hnow.mono hst
  cases hfound : t.challengesByValue.get? text with
  | none => exact safe_refusal (by rintro _ ⟨⟩)
  | some challenge =>
    change Safe _ _ _ i _ (if challenge.userId ≠ userId ∨ challenge.ceremonyType ≠ ceremonyType
      then _ else if challenge.isExpired now then _ else if challenge.used then _ else _) t
    split_ifs with hother hexpired hused
    · exact safe_refusal (by rintro _ ⟨⟩)
    · exact safe_refusal (by rintro _ ⟨⟩)
    · exact safe_refusal (by rintro _ ⟨⟩)
    obtain ⟨huser, htype⟩ := not_or.mp hother
    refine (challengeLaw s₀).safe_call (q := .consume text) isJournal_challengeLaw
      keptBy_challengeLaw rfl (fun _ _ _ _ => trivial) ?_
    intro v ω r w htv _ _ _ hserve _ _
    rcases consume_cases hserve with
      ⟨-, hanswer⟩ | ⟨existing, hexisting, hunused, hanswer, hredeemed⟩
    · rw [hanswer]
      exact safe_refusal (by rintro _ ⟨⟩)
    · -- what was checked of the challenge that was found holds of the one that is consumed
      have hsame : existing = challenge := by
        rcases ChallengesStay.stays htv text challenge hfound with h | h
        · exact Option.some.inj (hexisting.symm.trans h)
        · rw [Option.some.inj (hexisting.symm.trans h)] at hunused
          cases hunused
      subst hsame
      rw [hanswer]
      have hheld : ∃ now, WorksAt i given (v.redeemed i existing) now ∧
          Redeemed i ceremonyType userId text now (v.redeemed i existing) :=
        ⟨now, (hnow_t.mono htv).mono (ChallengesStay.consume hexisting), existing,
          List.mem_cons_self, KeyedMap.key_of_get? hexisting, not_not.mp huser, not_not.mp htype,
          by simpa using hexpired⟩
      rw [hredeemed]
      refine (safe_keeping ?_ rest hheld).imp fun _ _ h _ => h
      rintro x y hxy ⟨now, hworks, challenge, hmem, hchallenge⟩
      exact ⟨now, hworks.mono hxy, challenge, hxy.journal.subset hmem, hchallenge⟩

/-- Reading the time. -/
theorem safe_readNow {rest : ℤ → CeremonyProgram (CeremonyResult α)}
    (h : ∀ t now, WorksAt i given t now →
      Safe (challengeLaw s₀).contract CeremonyStore.serve FreshChallenges i
        (AnswersChallenge i ceremonyType userId text given) (rest now) t) :
    Safe (challengeLaw s₀).contract CeremonyStore.serve FreshChallenges i
      (AnswersChallenge i ceremonyType userId text given) (readNow given >>= rest) s := by
  cases given with
  | some now => exact h s now (.inl rfl)
  | none =>
    refine (challengeLaw s₀).safe_call (q := .now) isJournal_challengeLaw keptBy_challengeLaw rfl
      (fun _ _ _ _ => trivial) ?_
    intro t ω r u _ _ _ _ hserve _ _
    cases ω <;> cases hserve
    exact h _ _ (.inr List.mem_cons_self)

/-- A ceremony that succeeds has redeemed a challenge for it. -/
def AnswersCeremony (i : ℕ) (operation : CeremonyOperation) (s : CeremonyStore)
    (result : operation.Returns) : Prop :=
  ∀ ceremony, operation.ceremony? = some ceremony → operation.succeeds result = true →
    ∃ now, WorksAt i ceremony.now s now ∧
      Redeemed i ceremony.ceremonyType ceremony.userId ceremony.challenge now s

/-- Every operation keeps the law, and answers for the ceremony it completes. -/
theorem safe_ceremony {config : WebAuthnCeremonyType → CeremonyConfig}
    (operation : CeremonyOperation) :
    Safe (challengeLaw s₀).contract CeremonyStore.serve FreshChallenges i
      (AnswersCeremony i operation) (operation.execute config) s := by
  cases operation with
  | issue ceremonyType command =>
    have hstable : ∀ t u : CeremonyStore, (challengeLaw s₀).order t u → True → True :=
      fun _ _ _ h => h
    refine (safe_keeping hstable _ trivial).imp ?_
    rintro t result - ceremony ⟨⟩
  | register command =>
    have hwalk : Safe (challengeLaw s₀).contract CeremonyStore.serve FreshChallenges i
        (AnswersChallenge i .registration command.userId command.challenge command.now)
        (RegisterWebAuthnCredential.execute (config .registration) command) s := by
      refine safe_readNow fun t now hnow => ?_
      split
      · exact safe_refusal (by rintro _ ⟨⟩)
      · exact safe_redeemChallenge hnow
    refine hwalk.imp ?_
    rintro t (thrown | (error | value)) hanswers _ ⟨⟩ hsucceeds
    · cases hsucceeds
    · cases hsucceeds
    · exact hanswers ⟨value, rfl⟩
  | authenticate command =>
    have hwalk : Safe (challengeLaw s₀).contract CeremonyStore.serve FreshChallenges i
        (AnswersChallenge i .authentication command.userId command.challenge command.now)
        (VerifyWebAuthnAssertion.execute (config .authentication) command) s := by
      refine safe_readNow fun t now hnow => ?_
      split
      · exact safe_refusal (by rintro _ ⟨⟩)
      · exact safe_redeemChallenge hnow
    refine hwalk.imp ?_
    rintro t (thrown | (error | value)) hanswers _ ⟨⟩ hsucceeds
    · cases hsucceeds
    · cases hsucceeds
    · exact hanswers ⟨value, rfl⟩

end Walk

/-! ## Runs -/

section Runs

variable {config : WebAuthnCeremonyType → CeremonyConfig} {s : CeremonyStore} {P : CeremonyPool}

theorem redeemsOnce_initial (hjournal : s.journal = []) : RedeemsOnce s s := by
  constructor
  · simp [CeremonyStore.redeemers, hjournal]
  · simp [hjournal]
  · simp [hjournal]
  · intro text challenge hstored _
    rw [← KeyedMap.key_of_get? hstored] at hstored
    exact .inr hstored

theorem sound_ceremonies (hjournal : s.journal = [])
    (hrun : RunWhile (CeremonyPool.step config) (fun P e => P.Allows FreshChallenges e)
      (Pool.initial s) P) :
    Sound (challengeLaw s).contract CeremonyStore.serve FreshChallenges
      (fun i t => (challengeLaw s).deedsOf i t = [])
      (fun i operation _ t result => AnswersCeremony i operation t result) P :=
  (challengeLaw s).sound_of_run (fun _ operation _ _ _ => safe_ceremony operation)
    (redeemsOnce_initial hjournal) hjournal hrun

/-- A completed ceremony has redeemed its challenge. -/
theorem redeemed_of_completed (hjournal : s.journal = [])
    (hrun : RunWhile (CeremonyPool.step config) (fun P e => P.Allows FreshChallenges e)
      (Pool.initial s) P) {i : ℕ} {ceremony : Ceremony}
    (hcompleted : P.completed i = some ceremony) :
    ∃ now, WorksAt i ceremony.now P.store now ∧
      Redeemed i ceremony.ceremonyType ceremony.userId ceremony.challenge now P.store := by
  cases hreturned : P.returned i with
  | none =>
    rw [CeremonyPool.completed, hreturned] at hcompleted
    cases hcompleted
  | some returned =>
    obtain ⟨operation, result⟩ := returned
    rw [CeremonyPool.completed, hreturned] at hcompleted
    obtain ⟨hsucceeds, hceremony⟩ := Option.ite_none_right_eq_some.mp hcompleted
    obtain ⟨begun, hthread⟩ := Pool.threads_of_returned hreturned
    exact (sound_ceremonies hjournal hrun).done_of_ret hthread ceremony hceremony hsucceeds

/-- The thread that has redeemed a challenge is the only one. -/
theorem RedeemsOnce.redeemers_of_redeemed {s₀ t : CeremonyStore} (h : RedeemsOnce s₀ t) {i : ℕ}
    {ceremonyType : WebAuthnCeremonyType} {userId text : String} {now : ℤ}
    (hredeemed : Redeemed i ceremonyType userId text now t) : t.redeemers text = [i] := by
  obtain ⟨challenge, hmem, rfl, -⟩ := hredeemed
  have hi : i ∈ t.redeemers challenge.challenge :=
    List.mem_map.mpr ⟨_, List.mem_filter.mpr ⟨hmem, by simp [CeremonyDeed.redeems]⟩, rfl⟩
  obtain ⟨j, hj⟩ := List.length_eq_one_iff.mp
    (Nat.le_antisymm (h.once _) (List.length_pos_of_mem hi))
  rw [hj] at hi ⊢
  rw [List.mem_singleton.mp hi]

/-- While fresh challenges are issued, no challenge completes two ceremonies. -/
theorem challenge_completes_once (hjournal : s.journal = [])
    (hrun : RunWhile (CeremonyPool.step config) (fun P e => P.Allows FreshChallenges e)
      (Pool.initial s) P) : CompletedApart P := by
  intro i j ceremony ceremony' hi hj hsame
  have hinv : RedeemsOnce s P.store := (sound_ceremonies hjournal hrun).inv
  obtain ⟨now, -, hredeemed⟩ := redeemed_of_completed hjournal hrun hi
  obtain ⟨now', -, hredeemed'⟩ := redeemed_of_completed hjournal hrun hj
  have hone := hinv.redeemers_of_redeemed hredeemed
  have hother := hinv.redeemers_of_redeemed hredeemed'
  rw [hsame, hother] at hone
  exact (List.singleton_inj.mp hone).symm

end Runs

/-- A credential of a user, whose counter stands at 5. -/
def sampleCredential : WebAuthnCredential where
  id := "credential"
  credentialId := "key"
  userId := "user"
  mfaMethodId := "method"
  publicKey := "public"
  signCounter := 5
  transports := []
  attestationType := "none"
  aaguid := none
  deviceName := none
  createdAt := 0
  lastUsedAt := none

/-- The store of that credential and its method. -/
def sampleCeremonies : CeremonyStore where
  challengesByValue := KeyedMap.empty
  credentialsById := KeyedMap.empty.put sampleCredential
  methodsById := KeyedMap.empty.put (MfaMethod.createActive "method" "user" .webauthn 0)
  journal := []

/-- Both use cases configured alike. -/
def sampleCeremonyConfig (_ : WebAuthnCeremonyType) : CeremonyConfig where
  expectedOrigin := "https://app"
  expectedRpId := "app"

/-- An assertion of that credential that answers a challenge. -/
def sampleAssertion (challenge : String) : VerifyWebAuthnAssertionCommand where
  userId := "user"
  credentialId := "key"
  challenge := challenge
  clientDataJSON := .inl "data"
  authenticatorData := .inl "data"
  signature := .inl "signature"
  now := some 1000

/-- Thread `i` issues a challenge. -/
def issuing (i : ℕ) (text : String) : List (PoolEvent CeremonyOperation CeremonyInput) :=
  [.start i (.issue .authentication ⟨"user", some 0⟩), .answer i (.drawn text),
    .answer i (.drawn text), .answer i .served]

/-- What the verifier answers for a counter. -/
def verifiedWith (signCounter : ℕ) : CeremonyInput :=
  .verified (.ok (.ok ⟨"key", signCounter, true, true, "app", "https://app"⟩))

/-- One challenge is answered twice at the same time. -/
def challengeAnsweredTwice : CeremonyPool :=
  (execWhile (CeremonyPool.step sampleCeremonyConfig) (fun P e => P.Allows FreshChallenges e)
    (Pool.initial sampleCeremonies)
    (issuing 1 "nonce" ++
      [.start 2 (.authenticate (sampleAssertion "nonce")),
        .start 3 (.authenticate (sampleAssertion "nonce")), .answer 2 .served, .answer 3 .served,
        .answer 2 .served, .answer 3 .served, .answer 2 .served, .answer 2 .served,
        .answer 2 (verifiedWith 6), .answer 2 .served, .answer 2 .served])).get (by decide +kernel)

/-- Only the first completes. -/
theorem challenge_completes_once_answeredTwice :
    CompletedApart challengeAnsweredTwice ∧ challengeAnsweredTwice.completed 3 = none :=
  ⟨challenge_completes_once rfl (runWhile_get _), by decide +kernel⟩

end Verixa.Mfa
