import Mathlib.Data.List.Basic
import Verixa.Concurrency.Program

/-!
# Threads that rely on their own deeds

A store may keep a journal of what its threads have done, to which every call adds deeds of the
thread that calls.  Then all that a thread has to remember from one of its calls to the next are
its own deeds, and how the store has moved on in the meantime.

A `JournalLaw` names the journal, an invariant of the store, and an order in which the stores of a
run succeed each other.  A call is justified by the deeds of the thread that makes it, and
justified calls keep the law (`KeptBy`).  The rules walk through a program that makes justified
calls, and `sound_of_run` puts the threads together.
-/

namespace Concurrency

universe u v w

/-- A law for stores with a journal. -/
structure JournalLaw (σ δ : Type*) where
  /-- What each thread has done, the latest first. -/
  journal : σ → List (ℕ × δ)
  /-- Holds of the store at every moment. -/
  inv : σ → Prop
  /-- How the store moves on. -/
  order : σ → σ → Prop
  order_refl : ∀ s, order s s
  order_trans : ∀ s t u, order s t → order t u → order s u

section

variable {σ Ω C δ : Type*} {Q : Type u} {A : Q → Type v} {α : C → Type w}

/-- The deeds of a thread, the latest first. -/
def JournalLaw.deedsOf (J : JournalLaw σ δ) (i : ℕ) (s : σ) : List δ :=
  ((J.journal s).filter fun p => p.1 = i).map Prod.snd

theorem JournalLaw.mem_deedsOf {J : JournalLaw σ δ} {i : ℕ} {s : σ} {deed : δ} :
    deed ∈ J.deedsOf i s ↔ (i, deed) ∈ J.journal s := by
  simp [deedsOf]

/-- A thread relies on its deeds and on the order. -/
def JournalLaw.contract (J : JournalLaw σ δ) : Protocol σ where
  inv := J.inv
  rely i s t := J.deedsOf i t = J.deedsOf i s ∧ J.order s t
  rely_refl _ s := ⟨rfl, J.order_refl s⟩
  rely_trans _ _ _ _ hst htu := ⟨htu.1.trans hst.1, J.order_trans _ _ _ hst.2 htu.2⟩

variable (J : JournalLaw σ δ) (serve : Server σ Ω Q A) (allowed : ℕ → σ → Q → Ω → Prop)
  (justified : ℕ → σ → Q → Prop)

/-- Every call adds deeds of the thread that calls, and no others. -/
def JournalLaw.IsJournal : Prop :=
  ∀ i s q ω r t, serve i s q ω = some (r, t) →
    ∃ deeds : List δ, J.journal t = deeds.map (Prod.mk i) ++ J.journal s

/-- Justified calls that meet `allowed` keep the law. -/
def JournalLaw.KeptBy : Prop :=
  ∀ i s q ω r t, J.inv s → justified i s q → allowed i s q ω → serve i s q ω = some (r, t) →
    J.inv t ∧ J.order s t

variable {J serve allowed justified} {i : ℕ} {s t : σ} {γ : Type w} {post : σ → γ → Prop}
  {deeds : List δ}

/-- A call adds the deeds of its thread to those before. -/
theorem JournalLaw.deedsOf_of_journal {added : List δ}
    (h : J.journal t = added.map (Prod.mk i) ++ J.journal s) :
    J.deedsOf i t = added ++ J.deedsOf i s := by
  simp [deedsOf, h, List.filter_map, Function.comp_def]

/-- A call that adds no deed. -/
theorem JournalLaw.deedsOf_of_same (h : J.journal t = J.journal s) :
    J.deedsOf i t = J.deedsOf i s := by
  rw [deedsOf, h, deedsOf]

/-- After one deed more. -/
theorem JournalLaw.deedsOf_of_deed {deed : δ} (h : J.journal t = (i, deed) :: J.journal s)
    (hknows : J.deedsOf i s = deeds) : J.deedsOf i t = deed :: deeds := by
  rw [← hknows]
  simp [deedsOf, h]

/-- A call adds no deeds to those of another thread. -/
theorem JournalLaw.deedsOf_of_journal_of_ne {added : List δ} {j : ℕ}
    (h : J.journal t = added.map (Prod.mk i) ++ J.journal s) (hj : j ≠ i) :
    J.deedsOf j t = J.deedsOf j s := by
  simp [deedsOf, h, List.filter_map, Function.comp_def, Ne.symm hj]

/-- While the deeds of a thread stay the same, only others add to the journal. -/
theorem JournalLaw.ne_of_deedsOf_eq {since : List (ℕ × δ)} (h : J.journal t = since ++ J.journal s)
    (hsame : J.deedsOf i t = J.deedsOf i s) : ∀ d ∈ since, d.1 ≠ i := by
  have hnone : ((since.filter fun p => p.1 = i).map Prod.snd) = [] := by
    simpa [deedsOf, h] using hsame
  intro d hd hi
  rw [List.map_eq_nil_iff, List.filter_eq_nil_iff] at hnone
  exact hnone d hd (by simpa using hi)

/-- Making a justified call. -/
theorem JournalLaw.safe_call (hjournal : J.IsJournal serve)
    (hkept : J.KeptBy serve allowed justified) {q : Q} {f : A q → Program Q A γ}
    (hknows : J.deedsOf i s = deeds)
    (hjust : ∀ t, J.order s t → J.inv t → J.deedsOf i t = deeds → justified i t q)
    (h : ∀ t ω r u, J.order s t → J.inv t → J.deedsOf i t = deeds → allowed i t q ω →
      serve i t q ω = some (r, u) → J.inv u → J.order t u →
      Safe J.contract serve allowed i post (f r) u) :
    Safe J.contract serve allowed i post (.call q f) s := by
  rintro t ω r u ⟨hdeeds, horder⟩ hinv hallowed hserve
  have hknows_t := hdeeds.trans hknows
  obtain ⟨hinv_u, horder_u⟩ := hkept i t q ω r u hinv (hjust t horder hinv hknows_t) hallowed hserve
  refine ⟨hinv_u, fun j hj => ?_, h t ω r u horder hinv hknows_t hallowed hserve hinv_u horder_u⟩
  obtain ⟨added, hadded⟩ := hjournal i t q ω r u hserve
  exact ⟨deedsOf_of_journal_of_ne hadded hj, horder_u⟩

/-- Returning. -/
theorem JournalLaw.safe_ret {a : γ} (hknows : J.deedsOf i s = deeds)
    (h : ∀ t, J.order s t → J.inv t → J.deedsOf i t = deeds → post t a) :
    Safe J.contract serve allowed i post (.ret a) s :=
  fun t ht hinv => h t ht.2 hinv (ht.1.trans hknows)

/-- When every call keeps the law, what the order keeps is kept by any program. -/
theorem JournalLaw.safe_of_stable (hjournal : J.IsJournal serve)
    (hkept : J.KeptBy serve allowed fun _ _ _ => True) {held : σ → Prop}
    (hstable : ∀ s t, J.order s t → held s → held t) (p : Program Q A γ) (h : held s) :
    Safe J.contract serve allowed i (fun t _ => held t) p s := by
  induction p generalizing s with
  | ret a => exact fun t ht _ => hstable _ _ ht.2 h
  | call q k ih =>
    refine J.safe_call hjournal hkept rfl (fun _ _ _ _ => trivial) ?_
    intro t ω r u hst _ _ _ _ _ htu
    exact ih r (hstable _ _ htu (hstable _ _ hst h))

variable {body : (c : C) → Program Q A (α c)} {done : ℕ → (c : C) → σ → σ → α c → Prop}
  {P : Pool σ Q A α}

/-- If every command, started by a thread that has done nothing yet, keeps the law, then every
run of a pool in which nothing has been started keeps it. -/
theorem JournalLaw.sound_of_run
    (hbody : ∀ i c s, J.inv s → J.deedsOf i s = [] →
      Safe J.contract serve allowed i (done i c s) (body c) s)
    (hinv : J.inv s) (hjournal : J.journal s = [])
    (hrun : RunWhile (Pool.step serve body) (fun P e => P.Allows allowed e) (Pool.initial s) P) :
    Sound J.contract serve allowed (fun i t => J.deedsOf i t = []) done P := by
  have hinitial : Sound J.contract serve allowed (fun i t => J.deedsOf i t = []) done
      (Pool.initial s : Pool σ Q A α) :=
    sound_initial hinv fun i => by simp [deedsOf, hjournal]
  exact Concurrency.sound_of_run (fun _ _ _ hst hidle => hst.1.trans hidle) hbody hinitial hrun

/-- The same for runs in which threads are started with given commands only. -/
theorem JournalLaw.sound_of_run_startsIn {started : ℕ → C → Prop}
    (hbody : ∀ i c s, started i c → J.inv s → J.deedsOf i s = [] →
      Safe J.contract serve allowed i (done i c s) (body c) s)
    (hinv : J.inv s) (hjournal : J.journal s = [])
    (hrun : RunWhile (Pool.step serve body)
      (fun P e => e.StartsIn started ∧ P.Allows allowed e) (Pool.initial s) P) :
    Sound J.contract serve allowed (fun i t => J.deedsOf i t = []) done P := by
  have hinitial : Sound J.contract serve allowed (fun i t => J.deedsOf i t = []) done
      (Pool.initial s : Pool σ Q A α) :=
    sound_initial hinv fun i => by simp [deedsOf, hjournal]
  exact hrun.invariant hinitial fun _ _ _ hP hok hstep =>
    hP.step_startsIn (fun _ _ _ hst hidle => hst.1.trans hidle) hbody hok.1 hok.2 hstep

end

end Concurrency
