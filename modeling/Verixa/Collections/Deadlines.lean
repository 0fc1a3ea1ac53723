import Mathlib.Data.Option.Basic
import Mathlib.Logic.Function.Basic
import Verixa.Collections.FixedWindow

/-!
# Deadlines that may be forgotten once they have passed

Every key may have a deadline, and what is asked about a key is whether its deadline is still
ahead.  A store need not keep a deadline that has passed: `Forgets` says that a reading of the
deadlines leaves out no others, and as long as the time does not go back such a reading answers
every question as the deadlines do (`Forgets.pending_eq`).
-/

namespace Deadlines

open FixedWindow

variable {κ T : Type*} [LinearOrder T]

/-- Whether the deadline of a key is still ahead. -/
def pending (deadlines : κ → Option T) (k : κ) (now : T) : Bool :=
  (deadlines k).any fun deadline => decide (now < deadline)

/-- The reading leaves out only deadlines that have passed. -/
def Forgets (now : T) (deadlines reading : κ → Option T) : Prop :=
  ∀ k, reading k = deadlines k ∨ reading k = none ∧ ∀ deadline ∈ deadlines k, deadline ≤ now

variable {now later : T} {deadlines reading reading' : κ → Option T}

theorem Forgets.refl (now : T) (deadlines : κ → Option T) : Forgets now deadlines deadlines :=
  fun _ => .inl rfl

/-- What has passed stays past. -/
theorem Forgets.mono (h : Forgets now deadlines reading) (hle : now ≤ later) :
    Forgets later deadlines reading := by
  intro k
  rcases h k with hsame | ⟨hnone, hpast⟩
  · exact .inl hsame
  · exact .inr ⟨hnone, fun deadline hdeadline => (hpast deadline hdeadline).trans hle⟩

theorem Forgets.trans (h : Forgets now deadlines reading) (h' : Forgets now reading reading') :
    Forgets now deadlines reading' := by
  intro k
  rcases h' k with hsame | ⟨hnone, hpast⟩
  · rw [hsame]
    exact h k
  · refine .inr ⟨hnone, fun deadline hdeadline => ?_⟩
    rcases h k with hkept | ⟨-, hbefore⟩
    · exact hpast deadline (hkept ▸ hdeadline)
    · exact hbefore deadline hdeadline

/-- A reading in which the deadline still ahead of a key is the same answers the same. -/
theorem Forgets.pending_eq (h : Forgets now deadlines reading) (k : κ) :
    pending reading k now = pending deadlines k now := by
  unfold pending
  rcases h k with hsame | ⟨hnone, hpast⟩
  · rw [hsame]
  · rw [hnone, Option.any_none, eq_comm, Option.any_eq_false]
    intro deadline hdeadline
    simpa using hpast deadline hdeadline

section Update

variable [DecidableEq κ]

/-- A new deadline replaces the one before, whether that was forgotten or not. -/
theorem Forgets.update (h : Forgets now deadlines reading) (k : κ) (deadline : T) :
    Forgets now (Function.update deadlines k (some deadline))
      (Function.update reading k (some deadline)) := by
  intro k'
  rcases eq_or_ne k' k with rfl | hne
  · exact .inl (by simp)
  · simpa [hne] using h k'

/-- Dropping a deadline that has passed. -/
theorem Forgets.drop {k : κ} (hpast : ∀ deadline ∈ deadlines k, deadline ≤ now) :
    Forgets now deadlines (Function.update deadlines k none) := by
  intro k'
  rcases eq_or_ne k' k with rfl | hne
  · exact .inr ⟨by simp, hpast⟩
  · exact .inl (by simp [hne])

end Update

/-- Machines that stay related while the time moves on put out the same. -/
theorem outputs_eq_of_timed_simulation {σ τ ι ο : Type*} {f : σ → T × ι → ο × σ}
    {g : τ → T × ι → ο × τ} {R : T → σ → τ → Prop}
    (hmono : ∀ now later s t, now ≤ later → R now s t → R later s t)
    (hstep : ∀ now s t i, R now s t →
      (f s (now, i)).1 = (g t (now, i)).1 ∧ R now (f s (now, i)).2 (g t (now, i)).2)
    {s : σ} {t : τ} (h : R now s t) {inputs : List (T × ι)}
    (hordered : (now :: inputs.map Prod.fst).Pairwise (· ≤ ·)) :
    outputs f s inputs = outputs g t inputs := by
  induction inputs generalizing now s t with
  | nil => rfl
  | cons input inputs ih =>
    obtain ⟨time, i⟩ := input
    rw [List.map_cons, List.pairwise_cons] at hordered
    have hle : now ≤ time := hordered.1 time List.mem_cons_self
    obtain ⟨hout, hnext⟩ := hstep time s t i (hmono now time s t hle h)
    rw [outputs, outputs, hout, ih hnext hordered.2]

end Deadlines
