import Verixa.Concurrency.Program

/-!
# Programs that run alone

`Runs serve allowed i p s a t` says that thread `i`, when nobody else moves, can run the program
`p` from the store `s` to its end, where it returns `a` and leaves the store `t`.  It is what is
said of a single call of an asynchronous function, or of several calls one after another.

The rules take a program apart: returning, making a call, sequencing.  Runs alone are runs of a
pool in which only the one thread is answered (`runWhile_of_runs`).
-/

namespace Concurrency

universe u v w

variable {σ Ω C : Type*} {Q : Type u} {A : Q → Type v} {γ δ : Type w}

section Runs

variable (serve : Server σ Ω Q A) (allowed : ℕ → σ → Q → Ω → Prop) (i : ℕ)

/-- The call of thread `i` may be answered so. -/
def Answers (s : σ) (q : Q) (r : A q) (t : σ) : Prop :=
  ∃ ω, allowed i s q ω ∧ serve i s q ω = some (r, t)

/-- Thread `i` can run the program alone from a store to its end. -/
inductive Runs : Program Q A γ → σ → γ → σ → Prop
  | ret (a : γ) (s : σ) : Runs (.ret a) s a s
  | call {q : Q} {k : A q → Program Q A γ} {s t u : σ} {r : A q} {a : γ} :
      Answers serve allowed i s q r t → Runs (k r) t a u → Runs (.call q k) s a u

variable {serve allowed i} {s t : σ} {a : γ}

/-- A program that has returned does nothing more. -/
@[simp] theorem runs_ret {b : γ} : Runs serve allowed i (.ret b) s a t ↔ a = b ∧ t = s := by
  constructor
  · intro h
    cases h
    exact ⟨rfl, rfl⟩
  · rintro ⟨rfl, rfl⟩
    exact .ret _ _

/-- A program that makes a call goes on with the answer. -/
theorem runs_call {q : Q} {k : A q → Program Q A γ} :
    Runs serve allowed i (.call q k) s a t ↔
      ∃ r u, Answers serve allowed i s q r u ∧ Runs serve allowed i (k r) u a t := by
  constructor
  · intro h
    cases h with
    | call hanswers hrest => exact ⟨_, _, hanswers, hrest⟩
  · rintro ⟨r, u, hanswers, hrest⟩
    exact .call hanswers hrest

/-- Sequencing: the second program runs in the store that the first has left. -/
theorem runs_bind {p : Program Q A δ} {f : δ → Program Q A γ} :
    Runs serve allowed i (p >>= f) s a t ↔
      ∃ b u, Runs serve allowed i p s b u ∧ Runs serve allowed i (f b) u a t := by
  induction p generalizing s with
  | ret b => simp [and_assoc]
  | call q k ih =>
    rw [Program.call_bind, runs_call]
    constructor
    · rintro ⟨r, u, hanswers, hrest⟩
      obtain ⟨b, v, hk, hf⟩ := (ih r).mp hrest
      exact ⟨b, v, .call hanswers hk, hf⟩
    · rintro ⟨b, v, hcall, hf⟩
      obtain ⟨r, u, hanswers, hk⟩ := runs_call.mp hcall
      exact ⟨r, u, hanswers, (ih r).mpr ⟨b, v, hk, hf⟩⟩

/-- A single call. -/
theorem runs_perform {A : Q → Type w} {serve : Server σ Ω Q A} {q : Q} {r : A q} :
    Runs serve allowed i (Program.perform q : Program Q A (A q)) s r t ↔
      Answers serve allowed i s q r t := by
  rw [Program.perform, runs_call]
  constructor
  · rintro ⟨r', u, hanswers, hrest⟩
    obtain ⟨rfl, rfl⟩ := runs_ret.mp hrest
    exact hanswers
  · intro hanswers
    exact ⟨r, t, hanswers, .ret r t⟩

/-- Where more answers are allowed, a run is still one. -/
theorem Runs.imp {allowed' : ℕ → σ → Q → Ω → Prop} {p : Program Q A γ}
    (h : Runs serve allowed i p s a t)
    (himp : ∀ s q ω, allowed i s q ω → allowed' i s q ω) : Runs serve allowed' i p s a t := by
  induction h with
  | ret a s => exact .ret a s
  | call hanswers _ ih =>
    obtain ⟨ω, hallowed, hserve⟩ := hanswers
    exact .call ⟨ω, himp _ _ _ hallowed, hserve⟩ ih

/-- When every call can be answered, every program has a run. -/
theorem exists_runs (h : ∀ s q, ∃ r t, Answers serve allowed i s q r t) (p : Program Q A γ)
    (s : σ) : ∃ a t, Runs serve allowed i p s a t := by
  induction p generalizing s with
  | ret a => exact ⟨a, s, .ret a s⟩
  | call q k ih =>
    obtain ⟨r, u, hanswers⟩ := h s q
    obtain ⟨a, t, hrest⟩ := ih r u
    exact ⟨a, t, .call hanswers hrest⟩

end Runs

/-! ## One after another -/

section InTurn

variable {α : C → Type w} (serve : Server σ Ω Q A) (allowed : ℕ → σ → Q → Ω → Prop)
  (body : (c : C) → Program Q A (α c))

/-- Commands that are executed one after another, each alone, lead from `s` to the given store. -/
inductive InTurn (s : σ) : σ → Prop
  | refl : InTurn s s
  | tail {t u : σ} {i : ℕ} {c : C} {a : α c} :
      InTurn s t → Runs serve allowed i (body c) t a u → InTurn s u

variable {serve allowed body}

/-- What every execution keeps, a sequence of executions keeps. -/
theorem InTurn.invariant {I : σ → Prop} {s t : σ} (h : InTurn serve allowed body s t) (hs : I s)
    (hstep : ∀ t u i c (a : α c), I t → Runs serve allowed i (body c) t a u → I u) : I t := by
  induction h with
  | refl => exact hs
  | tail _ hruns ih => exact hstep _ _ _ _ _ ih hruns

/-- Run a program alone, with the given outside values for its calls. -/
def Program.runAlone (serve : Server σ Ω Q A) (i : ℕ) :
    Program Q A γ → σ → List Ω → Option (γ × σ)
  | .ret a, s, [] => some (a, s)
  | .ret _, _, _ :: _ => none
  | .call _ _, _, [] => none
  | .call q k, s, ω :: ωs => (serve i s q ω).bind fun r => runAlone serve i (k r.1) r.2 ωs

/-- Running a program is a run. -/
theorem runs_of_runAlone {i : ℕ} {p : Program Q A γ} {s t : σ} {a : γ} {ωs : List Ω}
    (h : p.runAlone serve i s ωs = some (a, t)) : Runs serve (fun _ _ _ _ => True) i p s a t := by
  induction p generalizing s ωs with
  | ret b =>
    cases ωs with
    | nil =>
      cases h
      exact .ret _ _
    | cons ω ωs => cases h
  | call q k ih =>
    cases ωs with
    | nil => cases h
    | cons ω ωs =>
      rw [Program.runAlone, Option.bind_eq_some_iff] at h
      obtain ⟨⟨r, u⟩, hserve, hrest⟩ := h
      exact .call ⟨ω, trivial, hserve⟩ (ih r hrest)

/-- Execute commands one after another, each with the given outside values. -/
def execInTurn (serve : Server σ Ω Q A) (body : (c : C) → Program Q A (α c)) (s : σ) :
    List (C × List Ω) → Option σ
  | [] => some s
  | (c, ωs) :: rest =>
    ((body c).runAlone serve 0 s ωs).bind fun r => execInTurn serve body r.2 rest

/-- The store that executions lead to is reached by them. -/
theorem inTurn_of_execInTurn {s t u : σ} {cs : List (C × List Ω)}
    (hs : InTurn serve (fun _ _ _ _ => True) body s t)
    (h : execInTurn serve body t cs = some u) :
    InTurn serve (fun _ _ _ _ => True) body s u := by
  induction cs generalizing t with
  | nil =>
    cases h
    exact hs
  | cons entry rest ih =>
    rw [execInTurn, Option.bind_eq_some_iff] at h
    obtain ⟨⟨a, v⟩, halone, hrest⟩ := h
    exact ih (hs.tail (runs_of_runAlone halone)) hrest

theorem inTurn_get {s : σ} {cs : List (C × List Ω)}
    (h : (execInTurn serve body s cs).isSome = true) :
    InTurn serve (fun _ _ _ _ => True) body s ((execInTurn serve body s cs).get h) :=
  inTurn_of_execInTurn .refl (Option.some_get h).symm

/-- Run a program alone, with the given outside values for its calls, as long as these are
allowed. -/
def Program.runAllowed (serve : Server σ Ω Q A) (allowed : ℕ → σ → Q → Ω → Prop)
    [∀ i s q ω, Decidable (allowed i s q ω)] (i : ℕ) :
    Program Q A γ → σ → List Ω → Option (γ × σ)
  | .ret a, s, [] => some (a, s)
  | .ret _, _, _ :: _ => none
  | .call _ _, _, [] => none
  | .call q k, s, ω :: ωs =>
    if allowed i s q ω then
      (serve i s q ω).bind fun r => runAllowed serve allowed i (k r.1) r.2 ωs
    else none

/-- Running a program while its calls are allowed is a run. -/
theorem runs_of_runAllowed [∀ i s q ω, Decidable (allowed i s q ω)] {i : ℕ} {p : Program Q A γ}
    {s t : σ} {a : γ} {ωs : List Ω} (h : p.runAllowed serve allowed i s ωs = some (a, t)) :
    Runs serve allowed i p s a t := by
  induction p generalizing s ωs with
  | ret b =>
    cases ωs with
    | nil =>
      cases h
      exact .ret _ _
    | cons ω ωs => cases h
  | call q k ih =>
    cases ωs with
    | nil => cases h
    | cons ω ωs =>
      rw [Program.runAllowed] at h
      split at h
      · rename_i hallowed
        obtain ⟨⟨r, u⟩, hserve, hrest⟩ := Option.bind_eq_some_iff.mp h
        exact .call ⟨ω, hallowed, hserve⟩ (ih r hrest)
      · cases h

theorem runs_get_of_runAllowed [∀ i s q ω, Decidable (allowed i s q ω)] {i : ℕ}
    {p : Program Q A γ} {s : σ} {ωs : List Ω}
    (h : (p.runAllowed serve allowed i s ωs).isSome = true) :
    Runs serve allowed i p s ((p.runAllowed serve allowed i s ωs).get h).1
      ((p.runAllowed serve allowed i s ωs).get h).2 :=
  runs_of_runAllowed (Option.some_get h).symm

end InTurn

/-! ## In a pool -/

section Pool

variable {α : C → Type w} {serve : Server σ Ω Q A} {allowed : ℕ → σ → Q → Ω → Prop} {i : ℕ}
  (body : (c : C) → Program Q A (α c))

/-- A thread that is left alone takes the pool to the end of its run. -/
theorem runWhile_of_runs {P : Pool σ Q A α} {c : C} {begun t : σ} {p : Program Q A (α c)} {a : α c}
    (hi : P.threads i = some ⟨c, begun, p⟩) (h : Runs serve allowed i p P.store a t) :
    RunWhile (Pool.step serve body) (fun P e => P.Allows allowed e) P
      ⟨t, Function.update P.threads i (some ⟨c, begun, .ret a⟩)⟩ := by
  generalize hs : P.store = s at h
  induction h generalizing P with
  | ret a s =>
    rw [← hs, ← hi, Function.update_eq_self]
    exact .refl
  | @call q k s u t r a hanswers _ ih =>
    obtain ⟨ω, hallowed, hserve⟩ := hanswers
    let P' : Pool σ Q A α := ⟨u, Function.update P.threads i (some ⟨c, begun, k r⟩)⟩
    have hstep : P.step serve body (.answer i ω) = some P' := by
      simp [Pool.step, hi, hs, hserve, P']
    have hok : P.Allows allowed (.answer i ω) := by simpa [Pool.Allows, hi, hs] using hallowed
    have hrest := ih (P := P') (by simp [P']) rfl
    rw [Function.update_idem] at hrest
    exact hrest.head hok hstep

/-- A command that is started and left alone takes a pool to the end of its run. -/
theorem run_of_runs {P : Pool σ Q A α} {c : C} {t : σ} {a : α c} (hi : P.threads i = none)
    (h : Runs serve allowed i (body c) P.store a t) :
    RunWhile (Pool.step serve body) (fun P e => P.Allows allowed e) P
      ⟨t, Function.update P.threads i (some ⟨c, P.store, .ret a⟩)⟩ := by
  let P' : Pool σ Q A α := ⟨P.store, Function.update P.threads i (some ⟨c, P.store, body c⟩)⟩
  have hstep : P.step serve body (.start i c) = some P' := by simp [Pool.step, hi, P']
  have hi' : P'.threads i = some ⟨c, P.store, body c⟩ := by simp [P']
  have hrest := runWhile_of_runs (P := P') body hi' h
  rw [Function.update_idem] at hrest
  have hok : P.Allows allowed (.start i c) := trivial
  exact RunWhile.head hok hstep hrest

end Pool

end Concurrency
