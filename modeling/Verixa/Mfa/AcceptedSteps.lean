import Verixa.Concurrency.Journal
import Verixa.Mfa.TotpUseCases

/-!
# The time steps of accepted codes

Executions of the two use cases that accept a code, over a store that returns the method last saved.
The steps of the codes that are accepted for a method need not increase: `ConfirmTotpEnrollment`
does not record the step of its code, and an execution saves a method that it found in an earlier
call (`step_accepted_twice`).

In runs in which every save finds status and last step of the stored method as its execution found
them, and no challenge takes the step that confirmed the enrollment or an earlier one, they increase
(`accepted_steps_increase`).
-/

namespace Verixa.Mfa

open Concurrency

/-! ## The store -/

/-- An execution of one of the use cases. -/
inductive TotpOperation where
  | confirm (command : TotpCommand)
  | verify (command : TotpCommand)
  deriving DecidableEq

/-- What the execution runs. -/
def TotpOperation.execute : TotpOperation → MethodProgram TotpResult
  | .confirm command => ConfirmTotpEnrollment.execute command
  | .verify command => VerifyTotpChallenge.execute command

/-- The step that the algorithm matched a code to, and the drift window it was asked for. -/
structure TotpMatch where
  driftWindow : Option ℕ
  step : ℤ
  deriving DecidableEq

/-- What a thread has done.  With a save goes what the thread had found, and what the algorithm had
matched for it. -/
inductive MethodDeed where
  | found (method : MfaMethod)
  | matched (answer : TotpMatch)
  | saved (found : Option MfaMethod) (matched : Option TotpMatch) (method : MfaMethod)
  deriving DecidableEq

/-- The method that was found, if the deed is that. -/
def MethodDeed.found? : MethodDeed → Option MfaMethod
  | .found method => some method
  | _ => none

/-- What was matched, if the deed is that. -/
def MethodDeed.matched? : MethodDeed → Option TotpMatch
  | .matched answer => some answer
  | _ => none

/-- The stored methods, and what the threads have done. -/
structure MethodStore where
  methodsById : KeyedMap MfaMethod.id
  journal : List (ℕ × MethodDeed)

/-- What comes from outside: what the clock shows, and what the algorithm answers. -/
inductive MethodInput where
  | time (now : ℤ)
  | verified (answer : Except ThrownError (Option ℤ))
  | served

namespace MethodStore

/-- Enters a deed of a thread. -/
def note (s : MethodStore) (i : ℕ) (deed : MethodDeed) : MethodStore :=
  { s with journal := (i, deed) :: s.journal }

/-- The deeds of a thread, the latest first. -/
def deedsOf (s : MethodStore) (i : ℕ) : List MethodDeed :=
  (s.journal.filter fun p => p.1 = i).map Prod.snd

/-- The method that the thread has found. -/
def foundBy (s : MethodStore) (i : ℕ) : Option MfaMethod :=
  (s.deedsOf i).findSome? MethodDeed.found?

/-- What the algorithm has matched for the thread. -/
def matchedBy (s : MethodStore) (i : ℕ) : Option TotpMatch :=
  (s.deedsOf i).findSome? MethodDeed.matched?

/-- The store after a thread's save. -/
def saved (s : MethodStore) (i : ℕ) (method : MfaMethod) : MethodStore :=
  { s with methodsById := s.methodsById.put method }.note i
    (.saved (s.foundBy i) (s.matchedBy i) method)

/-- How a call is answered: the store returns the method last saved, and its saves succeed. -/
def serve : Server MethodStore MethodInput MethodRequest MethodRequest.Answer := fun i s q ω =>
  match q, ω with
  | .now, .time now => some (now, s)
  | .findById id, .served =>
    match s.methodsById.get? id with
    | none => some (none, s)
    | some method => some (some method, s.note i (.found method))
  | .verify _ _ driftWindow, .verified answer =>
    match answer with
    | .ok (some step) => some (answer, s.note i (.matched ⟨driftWindow, step⟩))
    | _ => some (answer, s)
  | .save method, .served => some (none, s.saved i method)
  | _, _ => none

end MethodStore

/-- Any number of executions over a store. -/
abbrev MethodPool := Pool MethodStore MethodRequest MethodRequest.Answer
  fun _ : TotpOperation => TotpResult

/-- A step of the pool. -/
def MethodPool.step : MethodPool → PoolEvent TotpOperation MethodInput → Option MethodPool :=
  Pool.step MethodStore.serve TotpOperation.execute

/-- The thread has accepted its code. -/
def MethodPool.hasAccepted (P : MethodPool) (i : ℕ) : Bool :=
  match P.returned i with
  | some ⟨_, .ok (.ok ())⟩ => true
  | _ => false

/-- The step of a code that was accepted for a method, from the save of the thread that accepted
it. -/
def MethodPool.acceptedStep (P : MethodPool) (id : String) : ℕ × MethodDeed → Option ℤ
  | (i, .saved _ matched method) =>
    if method.id = id ∧ P.hasAccepted i = true then matched.map TotpMatch.step else none
  | _ => none

/-- The steps of the codes accepted for a method, the latest first. -/
def MethodPool.acceptedSteps (P : MethodPool) (id : String) : List ℤ :=
  P.store.journal.filterMap (P.acceptedStep id)

/-- The steps of the codes accepted for a method increase. -/
def StepsIncrease (P : MethodPool) : Prop :=
  ∀ id, (P.acceptedSteps id).Pairwise fun later earlier => earlier < later

/-! ## Saves in order -/

/-- What a save takes for a method: the step that confirms it, or one that is fresh for the method
that the thread had found. -/
def MethodDeed.taken (id : String) : MethodDeed → Option TotpMatch
  | .saved (some earlier) (some answer) method =>
    if method.id = id ∧ (answer.driftWindow = none ∨ earlier.IsFresh answer.step) then some answer
    else none
  | _ => none

/-- What was taken for a method, the latest first. -/
def MethodStore.takings (s : MethodStore) (id : String) : List TotpMatch :=
  s.journal.filterMap fun entry => entry.2.taken id

/-- The stored method has the status and the last step of the one that the thread has found. -/
def MethodStore.isUnchangedFor (s : MethodStore) (i : ℕ) (id : String) : Bool :=
  (s.methodsById.get? id).all fun stored => (s.foundBy i).all fun found =>
    decide (stored.status = found.status ∧ stored.lastUsedStep = found.lastUsedStep)

/-- The thread takes, for a challenge, no step that confirmed the method and none before it. -/
def MethodStore.isLaterThanConfirmed (s : MethodStore) (i : ℕ) (id : String) : Bool :=
  (s.matchedBy i).all fun answer => (s.foundBy i).all fun found =>
    decide (answer.driftWindow = none ∨ ¬found.IsFresh answer.step ∨
      ∀ taken ∈ s.takings id, taken.driftWindow = none → taken.step < answer.step)

/-- A save meets both. -/
def savesInOrder (i : ℕ) (s : MethodStore) : MethodRequest → Bool
  | .save method => s.isUnchangedFor i method.id && s.isLaterThanConfirmed i method.id
  | _ => true

/-- `savesInOrder`, as a condition on the calls of a run. -/
def SavesInOrder (i : ℕ) (s : MethodStore) (q : MethodRequest) (_ : MethodInput) : Prop :=
  savesInOrder i s q = true

instance (i : ℕ) (s : MethodStore) (q : MethodRequest) (ω : MethodInput) :
    Decidable (SavesInOrder i s q ω) :=
  inferInstanceAs (Decidable (_ = true))

/-! ## The law of the steps -/

/-- What was taken for a method increases, is not after its last step unless it confirmed it, and
leaves it active. -/
structure TakesInOrder (s : MethodStore) : Prop where
  increasing : ∀ id, (s.takings id).Pairwise fun later earlier => earlier.step < later.step
  recorded : ∀ id, ∀ taken ∈ s.takings id, taken.driftWindow ≠ none →
    ∃ stored last, s.methodsById.get? id = some stored ∧ stored.lastUsedStep = some last ∧
      taken.step ≤ last
  active : ∀ id, ∀ taken ∈ s.takings id,
    ∃ stored, s.methodsById.get? id = some stored ∧ stored.status = .active

/-- The law of the steps; methods stay stored. -/
def stepLaw : JournalLaw MethodStore MethodDeed where
  journal := MethodStore.journal
  inv := TakesInOrder
  order s t := ∀ id, (s.methodsById.get? id).isSome = true → (t.methodsById.get? id).isSome = true
  order_refl _ _ h := h
  order_trans _ _ _ hst htu id h := htu id (hst id h)

/-- What an execution makes of the method that it found. -/
inductive Becomes (found method : MfaMethod) : Option TotpMatch → Prop
  | failed (hstatus : method.status = found.status)
      (hlast : method.lastUsedStep = found.lastUsedStep) : Becomes found method none
  | confirmed {step : ℤ} (hpending : found.status = .pending) (hactive : method.status = .active) :
      Becomes found method (some ⟨none, step⟩)
  | used {window : ℕ} {step : ℤ} (hfresh : found.IsFresh step) (hactive : method.status = .active)
      (hlast : method.lastUsedStep = some step) : Becomes found method (some ⟨some window, step⟩)
  | replayed {window : ℕ} {step : ℤ} (hold : ¬found.IsFresh step)
      (hstatus : method.status = found.status)
      (hlast : method.lastUsedStep = found.lastUsedStep) :
      Becomes found method (some ⟨some window, step⟩)

/-- What an execution promises of a call: it saves what has become of the method that it found. -/
def MethodJustified (i : ℕ) (s : MethodStore) : MethodRequest → Prop
  | .save method => ∃ found, s.foundBy i = some found ∧ method.id = found.id ∧
    (s.methodsById.get? method.id).isSome = true ∧ Becomes found method (s.matchedBy i)
  | _ => True

section Law

variable {i : ℕ} {s t : MethodStore} {id : String}

/-- The law looks at the methods and at what was taken. -/
theorem TakesInOrder.of_deed (h : TakesInOrder s) {deed : MethodDeed}
    (hdeed : ∀ found answer method, deed ≠ .saved found answer method) :
    TakesInOrder (s.note i deed) := by
  have htakings : ∀ id, (s.note i deed).takings id = s.takings id := by
    intro id
    have hnone : deed.taken id = none := by
      cases deed with
      | saved found answer method => exact absurd rfl (hdeed found answer method)
      | _ => rfl
    exact List.filterMap_cons_none hnone
  constructor
  · intro id
    rw [htakings]
    exact h.increasing id
  · intro id
    rw [htakings]
    exact h.recorded id
  · intro id
    rw [htakings]
    exact h.active id

theorem methodsById_saved {method : MfaMethod} :
    (s.saved i method).methodsById.get? id =
      if method.id = id then some method else s.methodsById.get? id :=
  KeyedMap.get?_put _ _ _

/-- A save that takes nothing and leaves status and last step of the method as they are. -/
theorem TakesInOrder.save_unchanged (h : TakesInOrder s) {method stored : MfaMethod}
    (hstored : s.methodsById.get? method.id = some stored) (hstatus : method.status = stored.status)
    (hlast : method.lastUsedStep = stored.lastUsedStep)
    (hnone : ∀ id, (MethodDeed.saved (s.foundBy i) (s.matchedBy i) method).taken id = none) :
    TakesInOrder (s.saved i method) := by
  have htakings : ∀ id, (s.saved i method).takings id = s.takings id := fun id =>
    List.filterMap_cons_none (hnone id)
  refine ⟨fun id => htakings id ▸ h.increasing id, fun id taken htaken hwindow => ?_,
    fun id taken htaken => ?_⟩
  · rw [htakings] at htaken
    obtain ⟨before, last, hbefore, hstep, hle⟩ := h.recorded id taken htaken hwindow
    rw [methodsById_saved]
    split_ifs with hid
    · rw [← hid, hstored] at hbefore
      exact ⟨method, last, rfl, hlast.trans (Option.some.inj hbefore ▸ hstep), hle⟩
    · exact ⟨before, last, hbefore, hstep, hle⟩
  · rw [htakings] at htaken
    obtain ⟨before, hbefore, hactive⟩ := h.active id taken htaken
    rw [methodsById_saved]
    split_ifs with hid
    · rw [← hid, hstored] at hbefore
      exact ⟨method, rfl, hstatus.trans (Option.some.inj hbefore ▸ hactive)⟩
    · exact ⟨before, hbefore, hactive⟩

/-- A save that takes a step after all that were taken for the method. -/
theorem TakesInOrder.save_taken (h : TakesInOrder s) {method : MfaMethod} {answer : TotpMatch}
    (htaken : (MethodDeed.saved (s.foundBy i) (s.matchedBy i) method).taken method.id = some answer)
    (hactive : method.status = .active)
    (hlater : ∀ taken ∈ s.takings method.id, taken.step < answer.step)
    (hrecorded : ∀ taken ∈ answer :: s.takings method.id, taken.driftWindow ≠ none →
      ∃ last, method.lastUsedStep = some last ∧ taken.step ≤ last) :
    TakesInOrder (s.saved i method) := by
  have hsame : (s.saved i method).takings method.id = answer :: s.takings method.id :=
    List.filterMap_cons_some htaken
  have hothers : ∀ id, method.id ≠ id → (s.saved i method).takings id = s.takings id := by
    intro id hid
    refine List.filterMap_cons_none ?_
    rw [MethodDeed.taken.eq_def]
    split
    · rename_i heq
      obtain ⟨-, -, rfl⟩ := MethodDeed.saved.inj heq
      exact if_neg fun hcond => hid hcond.1
    · rfl
  refine ⟨fun id => ?_, fun id taken hmem hwindow => ?_, fun id taken hmem => ?_⟩
  · by_cases hid : method.id = id
    · subst hid
      rw [hsame]
      exact List.pairwise_cons.mpr ⟨hlater, h.increasing _⟩
    · rw [hothers id hid]
      exact h.increasing id
  · rw [methodsById_saved]
    by_cases hid : method.id = id
    · subst hid
      rw [hsame] at hmem
      obtain ⟨last, hlast, hle⟩ := hrecorded taken hmem hwindow
      exact ⟨method, last, if_pos rfl, hlast, hle⟩
    · rw [hothers id hid] at hmem
      rw [if_neg hid]
      exact h.recorded id taken hmem hwindow
  · rw [methodsById_saved]
    by_cases hid : method.id = id
    · exact ⟨method, if_pos hid, hactive⟩
    · rw [hothers id hid] at hmem
      rw [if_neg hid]
      exact h.active id taken hmem

/-- Saves in order keep the law. -/
theorem TakesInOrder.save (h : TakesInOrder s) {method : MfaMethod}
    (hjust : MethodJustified i s (.save method))
    (hallowed : savesInOrder i s (.save method) = true) : TakesInOrder (s.saved i method) := by
  obtain ⟨found, hfound, hid, hisSome, hbecomes⟩ := hjust
  obtain ⟨stored, hstored⟩ := Option.isSome_iff_exists.mp hisSome
  obtain ⟨hunchanged, hconfirmed⟩ := Bool.and_eq_true_iff.mp hallowed
  obtain ⟨hstatus, hlast⟩ : stored.status = found.status ∧
      stored.lastUsedStep = found.lastUsedStep := by
    simpa [MethodStore.isUnchangedFor, hstored, hfound] using hunchanged
  cases hmatched : s.matchedBy i with
  | none =>
    rw [hmatched] at hbecomes
    cases hbecomes with
    | failed hstatus' hlast' =>
      refine h.save_unchanged hstored (hstatus'.trans hstatus.symm) (hlast'.trans hlast.symm) ?_
      intro id
      rw [hmatched, hfound]
      rfl
  | some answer =>
    rw [hmatched] at hbecomes
    have htaken : ∀ id, (MethodDeed.saved (s.foundBy i) (s.matchedBy i) method).taken id =
        if method.id = id ∧ (answer.driftWindow = none ∨ found.IsFresh answer.step) then
          some answer else none := by
      intro id
      rw [hfound, hmatched]
      rfl
    cases hbecomes with
    | confirmed hpending hactive =>
      -- a pending method has not been taken a step for
      have hnone : ∀ taken, taken ∉ s.takings method.id := by
        intro taken hmem
        obtain ⟨before, hbefore, hactive'⟩ := h.active method.id taken hmem
        rw [hstored] at hbefore
        rw [← Option.some.inj hbefore, hstatus, hpending] at hactive'
        cases hactive'
      refine h.save_taken ((htaken method.id).trans (if_pos ⟨rfl, .inl rfl⟩)) hactive
        (fun taken hmem => absurd hmem (hnone taken)) fun taken hmem hwindow => ?_
      rcases List.mem_cons.mp hmem with rfl | hmem
      · exact absurd rfl hwindow
      · exact absurd hmem (hnone taken)
    | @used window step hfresh hactive hlast' =>
      have hlater : ∀ taken ∈ s.takings method.id, taken.step < step := by
        intro taken hmem
        by_cases hwindow : taken.driftWindow = none
        · have hall : ∀ taken ∈ s.takings method.id, taken.driftWindow = none →
              taken.step < step := by
            simpa [MethodStore.isLaterThanConfirmed, hfound, hmatched, hfresh] using hconfirmed
          exact hall taken hmem hwindow
        · obtain ⟨before, last, hbefore, hstep, hle⟩ := h.recorded method.id taken hmem hwindow
          rw [hstored] at hbefore
          rw [← Option.some.inj hbefore, hlast] at hstep
          exact hle.trans_lt (hfresh last hstep)
      refine h.save_taken ((htaken method.id).trans (if_pos ⟨rfl, .inr hfresh⟩)) hactive hlater
        fun taken hmem _ => ⟨step, hlast', ?_⟩
      rcases List.mem_cons.mp hmem with rfl | hmem
      · exact le_rfl
      · exact (hlater taken hmem).le
    | replayed hold hstatus' hlast' =>
      refine h.save_unchanged hstored (hstatus'.trans hstatus.symm) (hlast'.trans hlast.symm) ?_
      intro id
      rw [htaken id]
      exact if_neg fun hcond => hcond.2.elim (by rintro ⟨⟩) hold

theorem isJournal_methodStore : stepLaw.IsJournal MethodStore.serve := by
  intro i s q ω r t hserve
  cases q with
  | now => cases ω <;> cases hserve; exact ⟨[], rfl⟩
  | findById id =>
    cases ω <;> simp only [MethodStore.serve, reduceCtorEq] at hserve
    split at hserve <;> cases hserve
    · exact ⟨[], rfl⟩
    · exact ⟨[_], rfl⟩
  | verify secret code driftWindow =>
    cases ω <;> simp only [MethodStore.serve, reduceCtorEq] at hserve
    split at hserve <;> cases hserve
    · exact ⟨[_], rfl⟩
    · exact ⟨[], rfl⟩
  | save method => cases ω <;> cases hserve; exact ⟨[_], rfl⟩

/-- Justified saves in order keep the law. -/
theorem keptBy_stepLaw : stepLaw.KeptBy MethodStore.serve SavesInOrder MethodJustified := by
  intro i s q ω r t hinv hjust hallowed hserve
  cases q with
  | now => cases ω <;> cases hserve; exact ⟨hinv, stepLaw.order_refl s⟩
  | findById id =>
    cases ω <;> simp only [MethodStore.serve, reduceCtorEq] at hserve
    split at hserve <;> cases hserve
    · exact ⟨hinv, stepLaw.order_refl s⟩
    · exact ⟨hinv.of_deed (by simp), fun _ h => h⟩
  | verify secret code driftWindow =>
    cases ω <;> simp only [MethodStore.serve, reduceCtorEq] at hserve
    split at hserve <;> cases hserve
    · exact ⟨hinv.of_deed (by simp), fun _ h => h⟩
    · exact ⟨hinv, stepLaw.order_refl s⟩
  | save method =>
    cases ω <;> cases hserve
    refine ⟨hinv.save hjust hallowed, fun id hid => ?_⟩
    rw [methodsById_saved]
    split_ifs
    · rfl
    · exact hid

end Law

/-! ## The walk through the use cases -/

section Walk

variable {i : ℕ} {s : MethodStore} {γ : Type} {post : MethodStore → γ → Prop}
  {deeds : List MethodDeed}

/-- Looking at the clock. -/
theorem safe_methodNow (hknows : stepLaw.deedsOf i s = deeds) {f : ℤ → MethodProgram γ}
    (h : ∀ t now, stepLaw.order s t → stepLaw.deedsOf i t = deeds →
      Safe stepLaw.contract MethodStore.serve SavesInOrder i post (f now) t) :
    Safe stepLaw.contract MethodStore.serve SavesInOrder i post (MethodCalls.now >>= f) s := by
  refine stepLaw.safe_call (q := .now) isJournal_methodStore keptBy_stepLaw hknows
    (fun _ _ _ _ => trivial) ?_
  intro t ω now u horder _ hknows_t _ hserve _ _
  cases ω <;> cases hserve
  exact h _ _ horder hknows_t

/-- Looking a method up. -/
theorem safe_findMethod {id : String} (hknows : stepLaw.deedsOf i s = deeds)
    {f : Option MfaMethod → MethodProgram γ}
    (hnone : ∀ t, stepLaw.deedsOf i t = deeds →
      Safe stepLaw.contract MethodStore.serve SavesInOrder i post (f none) t)
    (hsome : ∀ t method, (t.methodsById.get? method.id).isSome = true →
      stepLaw.deedsOf i t = .found method :: deeds →
      Safe stepLaw.contract MethodStore.serve SavesInOrder i post (f (some method)) t) :
    Safe stepLaw.contract MethodStore.serve SavesInOrder i post
      (MethodCalls.findById id >>= f) s := by
  refine stepLaw.safe_call (q := .findById id) isJournal_methodStore keptBy_stepLaw hknows
    (fun _ _ _ _ => trivial) ?_
  intro t ω r u _ _ hknows_t _ hserve _ _
  cases ω <;> simp only [MethodStore.serve, reduceCtorEq] at hserve
  cases hfound : t.methodsById.get? id with
  | none =>
    rw [hfound] at hserve
    cases hserve
    exact hnone _ hknows_t
  | some method =>
    rw [hfound] at hserve
    cases hserve
    refine hsome _ method ?_ (JournalLaw.deedsOf_of_deed rfl hknows_t)
    have hid : method.id = id := KeyedMap.key_of_get? hfound
    change (t.methodsById.get? method.id).isSome = true
    rw [hid, hfound]
    rfl

/-- Having a code verified. -/
theorem safe_verifyCode {secret code : String} {driftWindow : Option ℕ}
    (hknows : stepLaw.deedsOf i s = deeds)
    {f : Except ThrownError (Option ℤ) → MethodProgram γ}
    (hthrown : ∀ t thrown, stepLaw.deedsOf i t = deeds →
      Safe stepLaw.contract MethodStore.serve SavesInOrder i post (f (.error thrown)) t)
    (hnone : ∀ t, stepLaw.order s t → stepLaw.deedsOf i t = deeds →
      Safe stepLaw.contract MethodStore.serve SavesInOrder i post (f (.ok none)) t)
    (hsome : ∀ t matchedStep, stepLaw.order s t →
      stepLaw.deedsOf i t = .matched ⟨driftWindow, matchedStep⟩ :: deeds →
      Safe stepLaw.contract MethodStore.serve SavesInOrder i post
        (f (.ok (some matchedStep))) t) :
    Safe stepLaw.contract MethodStore.serve SavesInOrder i post
      (MethodCalls.verify secret code driftWindow >>= f) s := by
  refine stepLaw.safe_call (q := .verify secret code driftWindow) isJournal_methodStore
    keptBy_stepLaw hknows (fun _ _ _ _ => trivial) ?_
  intro t ω r u horder _ hknows_t _ hserve _ horder_u
  cases ω with
  | verified answer =>
    rcases answer with thrown | found
    · cases hserve
      exact hthrown _ thrown hknows_t
    · cases found with
      | none =>
        cases hserve
        exact hnone _ horder hknows_t
      | some matchedStep =>
        cases hserve
        exact hsome _ matchedStep (stepLaw.order_trans _ _ _ horder horder_u)
          (JournalLaw.deedsOf_of_deed rfl hknows_t)
  | _ => cases hserve

/-- Saving what has become of the method that was found. -/
theorem safe_saveMethod {found method : MfaMethod} {answer : Option TotpMatch}
    (hknows : stepLaw.deedsOf i s = deeds)
    (hfound : deeds.findSome? MethodDeed.found? = some found)
    (hmatched : deeds.findSome? MethodDeed.matched? = answer) (hid : method.id = found.id)
    (hstored : (s.methodsById.get? found.id).isSome = true) (hbecomes : Becomes found method answer)
    {f : Option ThrownError → MethodProgram γ}
    (h : ∀ t, stepLaw.deedsOf i t = .saved (some found) answer method :: deeds →
      Safe stepLaw.contract MethodStore.serve SavesInOrder i post (f none) t) :
    Safe stepLaw.contract MethodStore.serve SavesInOrder i post
      (MethodCalls.save method >>= f) s := by
  have hghost : ∀ t, stepLaw.deedsOf i t = deeds →
      t.foundBy i = some found ∧ t.matchedBy i = answer := by
    intro t hknows_t
    exact ⟨(congrArg _ hknows_t).trans hfound, (congrArg _ hknows_t).trans hmatched⟩
  refine stepLaw.safe_call (q := .save method) isJournal_methodStore keptBy_stepLaw hknows ?_ ?_
  · intro t horder _ hknows_t
    obtain ⟨hfound_t, hmatched_t⟩ := hghost t hknows_t
    refine ⟨found, hfound_t, hid, ?_, hmatched_t.symm ▸ hbecomes⟩
    rw [hid]
    exact horder found.id hstored
  · intro t ω r u _ _ hknows_t _ hserve _ _
    cases ω <;> cases hserve
    obtain ⟨hfound_t, hmatched_t⟩ := hghost t hknows_t
    refine h _ (JournalLaw.deedsOf_of_deed ?_ hknows_t)
    change (i, MethodDeed.saved (t.foundBy i) (t.matchedBy i) method) :: t.journal = _
    rw [hfound_t, hmatched_t]
    rfl

/-- What an execution that accepted its code has saved. -/
def AnswersFor (i : ℕ) (t : MethodStore) (result : TotpResult) : Prop :=
  result = .ok (.ok ()) → ∀ found answer method, (i, .saved found answer method) ∈ t.journal →
    ∃ found' answer', found = some found' ∧ answer = some answer' ∧
      (answer'.driftWindow = none ∨ found'.IsFresh answer'.step)

/-- An execution that does not accept its code has nothing to answer for. -/
theorem safe_refuse (hknows : stepLaw.deedsOf i s = deeds) {result : TotpResult}
    (hresult : result ≠ .ok (.ok ())) :
    Safe stepLaw.contract MethodStore.serve SavesInOrder i (AnswersFor i) (pure result) s :=
  stepLaw.safe_ret hknows fun _ _ _ _ hok => absurd hok hresult

/-- Recording a failed attempt. -/
theorem safe_recordFailure {method : MfaMethod} {answer : Option TotpMatch} {now : ℤ}
    {error : TotpError} (hknows : stepLaw.deedsOf i s = deeds)
    (hfound : deeds.findSome? MethodDeed.found? = some method)
    (hmatched : deeds.findSome? MethodDeed.matched? = answer)
    (hstored : (s.methodsById.get? method.id).isSome = true)
    (hbecomes : Becomes method (method.recordFailedAttempt now) answer) :
    Safe stepLaw.contract MethodStore.serve SavesInOrder i (AnswersFor i)
      (recordFailure method now error) s :=
  safe_saveMethod hknows hfound hmatched (rfl : (method.recordFailedAttempt now).id = method.id)
    hstored hbecomes fun _ hknows_t => safe_refuse hknows_t (by simp)

/-- Accepting a code: the method is saved, and the deeds are done. -/
theorem safe_accepted {method : MfaMethod} {answer : TotpMatch}
    {found : MfaMethod} (hknows : stepLaw.deedsOf i s = [.matched answer, .found found])
    (hid : method.id = found.id) (hstored : (s.methodsById.get? found.id).isSome = true)
    (hbecomes : Becomes found method (some answer))
    (htaken : answer.driftWindow = none ∨ found.IsFresh answer.step)
    {f : Option ThrownError → MethodProgram TotpResult} (hf : f none = pure (.ok (.ok ()))) :
    Safe stepLaw.contract MethodStore.serve SavesInOrder i (AnswersFor i)
      (MethodCalls.save method >>= f) s := by
  refine safe_saveMethod hknows rfl rfl hid hstored hbecomes fun t hknows_t => ?_
  rw [hf]
  refine stepLaw.safe_ret hknows_t fun u _ _ hknows_u _ found' answer' method' hmem => ?_
  have hdeed := (JournalLaw.mem_deedsOf (J := stepLaw)).mpr hmem
  rw [hknows_u] at hdeed
  simp only [List.mem_cons, List.not_mem_nil, or_false, reduceCtorEq,
    MethodDeed.saved.injEq] at hdeed
  obtain ⟨rfl, rfl, rfl⟩ := hdeed
  exact ⟨found, answer, rfl, rfl, htaken⟩

/-- What the two use cases share, with what each does with a code that matches. -/
theorem safe_check {check : TotpCheck} {command : TotpCommand}
    (hidle : stepLaw.deedsOf i s = [])
    (haccept : ∀ t method matchedStep now, method.status = check.status →
      (t.methodsById.get? method.id).isSome = true →
      stepLaw.deedsOf i t = [.matched ⟨check.driftWindow, matchedStep⟩, .found method] →
      Safe stepLaw.contract MethodStore.serve SavesInOrder i (AnswersFor i)
        (check.accept method matchedStep now) t) :
    Safe stepLaw.contract MethodStore.serve SavesInOrder i (AnswersFor i)
      (check.execute command) s := by
  rw [TotpCheck.execute]
  split
  · exact safe_refuse hidle (by simp)
  refine safe_findMethod hidle (fun t hknows_t => safe_refuse hknows_t (by simp)) ?_
  intro t method hstored hknows_t
  change Safe stepLaw.contract _ _ i _ (if method.status ≠ check.status then _ else _) t
  split
  · exact safe_refuse hknows_t (by simp)
  rename_i hstatus
  refine safe_methodNow hknows_t fun u now horder hknows_u => ?_
  have hstored_u := horder method.id hstored
  split
  · exact safe_refuse hknows_u (by simp)
  split
  · exact safe_refuse hknows_u (by simp)
  rw [TotpCheck.verifyCode]
  refine safe_verifyCode hknows_u (fun v thrown hknows_v => safe_refuse hknows_v (by simp)) ?_ ?_
  · intro v horder_v hknows_v
    exact safe_recordFailure hknows_v rfl rfl (horder_v _ hstored_u) (.failed rfl rfl)
  · intro v matchedStep horder_v hknows_v
    exact haccept v method matchedStep now (not_not.mp hstatus) (horder_v _ hstored_u) hknows_v

/-- Every execution keeps the law, and answers for the code it accepted. -/
theorem safe_operation {operation : TotpOperation} (hidle : stepLaw.deedsOf i s = []) :
    Safe stepLaw.contract MethodStore.serve SavesInOrder i (AnswersFor i) operation.execute s := by
  cases operation with
  | confirm command =>
    refine safe_check hidle fun t method matchedStep now hstatus hstored hknows => ?_
    have hactivate : method.activate now = .ok { method with
        status := .active
        failedAttempts := 0
        lockedUntil := none
        updatedAt := now } := by
      have hpending : method.status = .pending := hstatus
      rw [MfaMethod.activate, if_neg (by rw [hpending]; decide)]
    change Safe _ _ _ i _ (ConfirmTotpEnrollment.accept method matchedStep now) t
    rw [ConfirmTotpEnrollment.accept, hactivate]
    refine safe_accepted hknows ?_ hstored ?_ (.inl rfl) ?_
    · rfl
    · exact .confirmed hstatus rfl
    · rfl
  | verify command =>
    refine safe_check hidle fun t method matchedStep now hstatus hstored hknows => ?_
    change Safe _ _ _ i _ (VerifyTotpChallenge.accept method matchedStep now) t
    rw [VerifyTotpChallenge.accept]
    by_cases hfresh : method.IsFresh matchedStep
    · rw [MfaMethod.recordTotpUse_of_isFresh hstatus hfresh]
      refine safe_accepted hknows ?_ hstored ?_ (.inr hfresh) ?_
      · rfl
      · exact .used hfresh hstatus rfl
      · rfl
    · rw [MfaMethod.recordTotpUse_of_not_isFresh hstatus hfresh]
      exact safe_recordFailure hknows rfl rfl hstored (.replayed hfresh rfl rfl)

end Walk

/-! ## Runs -/

theorem hasAccepted_iff {P : MethodPool} {i : ℕ} :
    P.hasAccepted i = true ↔ ∃ operation, P.returned i = some ⟨operation, .ok (.ok ())⟩ := by
  rw [MethodPool.hasAccepted]
  split
  · rename_i operation hreturned
    exact iff_of_true rfl ⟨operation, hreturned⟩
  · rename_i hother
    refine iff_of_false (by decide) ?_
    rintro ⟨operation, hreturned⟩
    exact hother operation hreturned

/-- A method that waits for its confirmation. -/
def pendingMethod : MfaMethod := MfaMethod.createPendingTotp "method" "user" "secret" 0

/-- The store of that method. -/
def pendingMethods : MethodStore := ⟨KeyedMap.empty.put pendingMethod, []⟩

/-- Thread `i` finds the method and has its code matched to a step. -/
def matching (i : ℕ) (operation : TotpOperation) (now matchedStep : ℤ) :
    List (PoolEvent TotpOperation MethodInput) :=
  [.start i operation, .answer i .served, .answer i (.time now),
    .answer i (.verified (.ok (some matchedStep)))]

/-- A code for the method. -/
def sampleCode : TotpCommand := ⟨"method", "123456"⟩

/-- The code that confirms the enrollment is presented again. -/
def confirmedCodeReplayed : MethodPool :=
  (exec MethodPool.step (Pool.initial pendingMethods)
    (matching 1 (.confirm sampleCode) 150000 5 ++ [.answer 1 .served] ++
      matching 2 (.verify sampleCode) 160000 5 ++ [.answer 2 .served])).get (by decide +kernel)

/-- The code of one step can be accepted twice. -/
theorem step_accepted_twice :
    ∃ P, Run MethodPool.step (Pool.initial pendingMethods) P ∧ ¬StepsIncrease P := by
  refine ⟨confirmedCodeReplayed, runWhile_get _, fun hincrease => ?_⟩
  have hsteps : confirmedCodeReplayed.acceptedSteps "method" = [5, 5] := by decide +kernel
  have hpairwise := hincrease "method"
  rw [hsteps] at hpairwise
  exact absurd hpairwise (by decide)

/-- In runs whose saves are in order, the steps of the codes accepted for a method increase. -/
theorem accepted_steps_increase {s : MethodStore} (hjournal : s.journal = []) {P : MethodPool}
    (hrun : RunWhile MethodPool.step (fun P e => P.Allows SavesInOrder e) (Pool.initial s) P) :
    StepsIncrease P := by
  have hnone : ∀ id, s.takings id = [] := by
    intro id
    rw [MethodStore.takings, hjournal]
    rfl
  have hinitial : TakesInOrder s :=
    ⟨fun id => by simp [hnone], fun id => by simp [hnone], fun id => by simp [hnone]⟩
  have hsound : Sound stepLaw.contract MethodStore.serve SavesInOrder
      (fun i t => stepLaw.deedsOf i t = []) (fun i _ _ t result => AnswersFor i t result) P :=
    stepLaw.sound_of_run (fun _ _ _ _ hidle => safe_operation hidle) hinitial hjournal hrun
  have hinv : TakesInOrder P.store := hsound.inv
  -- what was accepted was taken
  have htaken : ∀ id, ∀ entry ∈ P.store.journal, ∀ acceptedStep,
      P.acceptedStep id entry = some acceptedStep →
        ∃ answer, entry.2.taken id = some answer ∧ answer.step = acceptedStep := by
    rintro id ⟨i, deed⟩ hentry acceptedStep haccepted
    cases deed with
    | saved found answer method =>
      rw [MethodPool.acceptedStep] at haccepted
      split_ifs at haccepted with hcond
      obtain ⟨operation, hreturned⟩ := hasAccepted_iff.mp hcond.2
      obtain ⟨begun, hthread⟩ := Pool.threads_of_returned hreturned
      obtain ⟨found', answer', rfl, rfl, hfresh⟩ :=
        hsound.done_of_ret hthread rfl found answer method hentry
      exact ⟨answer', if_pos ⟨hcond.1, hfresh⟩, Option.some.inj haccepted⟩
    | _ => cases haccepted
  intro id
  have hincreasing := List.pairwise_filterMap.mp (hinv.increasing id)
  refine List.pairwise_filterMap.mpr (hincreasing.imp_of_mem ?_)
  intro later earlier hlater hearlier hstep laterStep hlaterStep earlierStep hearlierStep
  obtain ⟨answer, hanswer, rfl⟩ := htaken id later hlater laterStep hlaterStep
  obtain ⟨answer', hanswer', rfl⟩ := htaken id earlier hearlier earlierStep hearlierStep
  exact hstep answer hanswer answer' hanswer'

/-- An enrollment is confirmed, and codes of later steps are presented. -/
def laterCodes : MethodPool :=
  (execWhile MethodPool.step (fun P e => P.Allows SavesInOrder e) (Pool.initial pendingMethods)
    (matching 1 (.confirm sampleCode) 150000 5 ++ [.answer 1 .served] ++
      matching 2 (.verify sampleCode) 180000 6 ++ [.answer 2 .served] ++
      matching 3 (.verify sampleCode) 190000 6 ++ [.answer 3 .served])).get (by decide +kernel)

/-- The code of the second step is not accepted again. -/
theorem accepted_steps_increase_laterCodes :
    StepsIncrease laterCodes ∧ laterCodes.acceptedSteps "method" = [6, 5] :=
  ⟨accepted_steps_increase rfl (runWhile_get _), by decide +kernel⟩

end Verixa.Mfa
