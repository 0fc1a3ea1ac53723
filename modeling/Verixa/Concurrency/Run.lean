import Mathlib.Logic.Function.Basic
import Mathlib.Data.Option.Basic

/-!
# Runs of a partial step function

A system is given by a step function `step : σ → ε → Option σ`: the event `e` takes the state `s`
to `t` when `step s e = some t`, and cannot happen in `s` when it is `none`.  Interleavings of
concurrent parties are runs of such a system whose events say which party moves next.

`RunWhile step ok s t` says that some run leads from `s` to `t` and that every step of it meets
`ok`, a condition on the state before the step and the event.  `Run` is the case without a
condition.  The rules of this file are the induction principles the developments use: an
invariant kept by one step is kept by a run, and executing a list of events gives a run.
-/

namespace Concurrency

variable {σ ε : Type*}

/-- There is a run of `step` from `s` to the given state all of whose steps satisfy `ok`. -/
inductive RunWhile (step : σ → ε → Option σ) (ok : σ → ε → Prop) (s : σ) : σ → Prop
  /-- The run without steps. -/
  | refl : RunWhile step ok s s
  /-- A run continued by one step. -/
  | tail {t u : σ} {e : ε} :
      RunWhile step ok s t → ok t e → step t e = some u → RunWhile step ok s u

/-- There is a run of `step` from `s` to the given state. -/
abbrev Run (step : σ → ε → Option σ) (s : σ) : σ → Prop :=
  RunWhile step (fun _ _ => True) s

/-- Perform the events of a schedule one after another, as long as each can happen and meets
`ok`. -/
def execWhile (step : σ → ε → Option σ) (ok : σ → ε → Prop) [∀ s e, Decidable (ok s e)] (s : σ) :
    List ε → Option σ
  | [] => some s
  | e :: es => if ok s e then (step s e).bind fun t => execWhile step ok t es else none

/-- Perform the events of a schedule one after another. -/
abbrev exec (step : σ → ε → Option σ) (s : σ) (es : List ε) : Option σ :=
  execWhile step (fun _ _ => True) s es

namespace RunWhile

variable {step : σ → ε → Option σ} {ok ok' : σ → ε → Prop} {s t u : σ}

/-- Invariant rule: what every step keeps, a run keeps. -/
theorem invariant {I : σ → Prop} (h : RunWhile step ok s t) (hs : I s)
    (hstep : ∀ t e u, I t → ok t e → step t e = some u → I u) : I t := by
  induction h with
  | refl => exact hs
  | tail _ hok hst ih => exact hstep _ _ _ ih hok hst

/-- Runs compose. -/
theorem trans (h : RunWhile step ok s t) (h' : RunWhile step ok t u) : RunWhile step ok s u := by
  induction h' with
  | refl => exact h
  | tail _ hok hst ih => exact ih.tail hok hst

/-- A run whose steps meet a condition meets every weaker one. -/
theorem mono (h : RunWhile step ok s t) (hok : ∀ t e, ok t e → ok' t e) :
    RunWhile step ok' s t := by
  induction h with
  | refl => exact .refl
  | tail _ ho hst ih => exact ih.tail (hok _ _ ho) hst

/-- A run whose steps meet a condition meets every condition that follows from it in the states
with an invariant. -/
theorem strengthen {I : σ → Prop} (h : RunWhile step ok s t) (hs : I s)
    (hstep : ∀ t e u, I t → ok t e → step t e = some u → I u)
    (hok : ∀ t e u, I t → ok t e → step t e = some u → ok' t e) : RunWhile step ok' s t := by
  induction h with
  | refl => exact .refl
  | tail hrun ho hst ih =>
    have hinv := hrun.invariant hs hstep
    exact ih.tail (hok _ _ _ hinv ho hst) hst

/-- Forget the condition of a run. -/
theorem toRun (h : RunWhile step ok s t) : Run step s t :=
  h.mono fun _ _ _ => trivial

/-- A first step and a run after it are a run. -/
theorem head {e : ε} (hok : ok s e) (hst : step s e = some t) (h : RunWhile step ok t u) :
    RunWhile step ok s u :=
  (RunWhile.refl.tail hok hst).trans h

end RunWhile

/-- Executing a schedule is a run. -/
theorem runWhile_of_execWhile {step : σ → ε → Option σ} {ok : σ → ε → Prop}
    [∀ s e, Decidable (ok s e)] {s t : σ} {es : List ε}
    (h : execWhile step ok s es = some t) : RunWhile step ok s t := by
  induction es generalizing s with
  | nil =>
    obtain rfl : s = t := Option.some.inj h
    exact .refl
  | cons e es ih =>
    by_cases hok : ok s e
    · rw [execWhile, if_pos hok] at h
      obtain ⟨u, hu, hrest⟩ := Option.bind_eq_some_iff.mp h
      exact RunWhile.head hok hu (ih hrest)
    · rw [execWhile, if_neg hok] at h
      cases h

/-- The state a schedule leads to is reached by a run. -/
theorem runWhile_get {step : σ → ε → Option σ} {ok : σ → ε → Prop}
    [∀ s e, Decidable (ok s e)] {s : σ} {es : List ε}
    (h : (execWhile step ok s es).isSome = true) :
    RunWhile step ok s ((execWhile step ok s es).get h) :=
  runWhile_of_execWhile (Option.some_get h).symm

end Concurrency
