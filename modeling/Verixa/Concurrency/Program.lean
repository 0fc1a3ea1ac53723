import Mathlib.Data.Nat.Notation
import Verixa.Concurrency.Run

/-!
# Asynchronous programs, pools of threads and a rely-guarantee rule

A `Program Q A α` makes calls one after another and returns a value of type `α`: a call `q : Q`
is answered by a value of type `A q`, on which the program goes on.  It is what an asynchronous
function looks like to the outside, an await being a call.

A `Pool` is a store and any number of threads, each running a program.  A step starts a thread or
lets the store answer the pending call of one thread, so that the calls of different threads
interleave in any way.  What the answer is may depend on an outside value `ω : Ω`, such as a clock
reading or a fault.

A `Protocol` is what the threads agree on: an invariant of the store and, for every thread, what
it may count on between two of its own calls.  `Safe` says that a program keeps to the protocol
when a given thread runs it, and ends with a postcondition; it is proved by walking through the
program once.  The rule `sound_of_run` then gives the invariant and the postconditions in every
interleaving.
-/

namespace Concurrency

universe u v w

/-- A program that makes calls `q : Q`, answered in `A q`, and returns a value. -/
inductive Program (Q : Type u) (A : Q → Type v) (α : Type w)
  /-- Return a value. -/
  | ret (a : α)
  /-- Make a call and go on with its answer. -/
  | call (q : Q) (k : A q → Program Q A α)

namespace Program

variable {Q : Type u} {A : Q → Type v} {α β : Type w}

/-- Sequencing. -/
protected def bind : Program Q A α → (α → Program Q A β) → Program Q A β
  | ret a, f => f a
  | call q k, f => call q fun r => (k r).bind f

instance : Monad (Program Q A) where
  pure := ret
  bind := Program.bind

/-- Make one call and return its answer. -/
def perform {A : Q → Type w} (q : Q) : Program Q A (A q) := call q ret

@[simp] theorem pure_eq (a : α) : (pure a : Program Q A α) = ret a := rfl

@[simp] theorem ret_bind (a : α) (f : α → Program Q A β) : ret a >>= f = f a := rfl

@[simp] theorem call_bind (q : Q) (k : A q → Program Q A α) (f : α → Program Q A β) :
    call q k >>= f = call q fun r => k r >>= f := rfl

@[simp] theorem perform_bind {A : Q → Type w} (q : Q) (f : A q → Program Q A β) :
    perform q >>= f = call q f := rfl

/-- The value a program has returned, if it has. -/
def result? : Program Q A α → Option α
  | ret a => some a
  | call _ _ => none

@[simp] theorem result?_ret (a : α) : (ret a : Program Q A α).result? = some a := rfl

end Program

/-! ## Pools of threads -/

section Pool

variable {σ Ω C : Type*} {Q : Type u} {A : Q → Type v} {α : C → Type w}

/-- What answers the calls: the thread that calls, the store, the call and an outside value give
an answer and the store after it, or nothing when the call cannot be answered so. -/
abbrev Server (σ Ω : Type*) (Q : Type u) (A : Q → Type v) :=
  ℕ → σ → (q : Q) → Ω → Option (A q × σ)

/-- A started command: the store it was started in and what is left of it. -/
structure Thread (σ : Type*) (Q : Type u) (A : Q → Type v) (α : C → Type w) where
  command : C
  begun : σ
  program : Program Q A (α command)

/-- A store and the threads that work on it; `none` is a thread not yet started. -/
structure Pool (σ : Type*) (Q : Type u) (A : Q → Type v) (α : C → Type w) where
  store : σ
  threads : ℕ → Option (Thread σ Q A α)

/-- What may happen next: a thread is started, or the pending call of a thread is answered. -/
inductive PoolEvent (C Ω : Type*)
  | start (i : ℕ) (c : C)
  | answer (i : ℕ) (ω : Ω)

/-- The pool in which nothing has been started. -/
def Pool.initial (s : σ) : Pool σ Q A α := ⟨s, fun _ => none⟩

/-- One step of a pool. -/
def Pool.step (serve : Server σ Ω Q A) (body : (c : C) → Program Q A (α c))
    (P : Pool σ Q A α) : PoolEvent C Ω → Option (Pool σ Q A α)
  | .start i c =>
    match P.threads i with
    | some _ => none
    | none => some { P with threads := Function.update P.threads i (some ⟨c, P.store, body c⟩) }
  | .answer i ω =>
    match P.threads i with
    | some ⟨c, begun, .call q k⟩ =>
      (serve i P.store q ω).map fun r =>
        ⟨r.2, Function.update P.threads i (some ⟨c, begun, k r.1⟩)⟩
    | _ => none

/-- A condition on the calls that are answered, as a condition on the steps of a pool. -/
def Pool.Allows (allowed : ℕ → σ → Q → Ω → Prop) (P : Pool σ Q A α) : PoolEvent C Ω → Prop
  | .start _ _ => True
  | .answer i ω =>
    match P.threads i with
    | some ⟨_, _, .call q _⟩ => allowed i P.store q ω
    | _ => True

instance (allowed : ℕ → σ → Q → Ω → Prop) [∀ i s q ω, Decidable (allowed i s q ω)]
    (P : Pool σ Q A α) (e : PoolEvent C Ω) : Decidable (P.Allows allowed e) :=
  match e with
  | .start _ _ => isTrue trivial
  | .answer i ω =>
    match h : P.threads i with
    | some ⟨_, _, .call q _⟩ =>
      decidable_of_iff (allowed i P.store q ω) (by simp [Pool.Allows, h])
    | some ⟨_, _, .ret _⟩ => isTrue (by simp [Pool.Allows, h])
    | none => isTrue (by simp [Pool.Allows, h])

/-- A weaker condition on the calls. -/
theorem Pool.Allows.imp {allowed allowed' : ℕ → σ → Q → Ω → Prop} {P : Pool σ Q A α}
    {e : PoolEvent C Ω} (himp : ∀ i s q ω, allowed i s q ω → allowed' i s q ω)
    (h : P.Allows allowed e) : P.Allows allowed' e := by
  cases e with
  | start i c => trivial
  | answer i ω =>
    rw [Pool.Allows] at h ⊢
    split at h
    · exact himp _ _ _ _ h
    · trivial

/-- A condition that every call meets is none on the steps. -/
theorem Pool.allows_of_forall {allowed : ℕ → σ → Q → Ω → Prop} (h : ∀ i s q ω, allowed i s q ω)
    (P : Pool σ Q A α) (e : PoolEvent C Ω) : P.Allows allowed e := by
  cases e with
  | start i c => trivial
  | answer i ω =>
    rw [Pool.Allows]
    split
    · exact h _ _ _ _
    · trivial

/-- What thread `i` was asked to do and what it has returned, if it has. -/
def Pool.returned (P : Pool σ Q A α) (i : ℕ) : Option ((c : C) × α c) :=
  (P.threads i).bind fun t => t.program.result?.map fun a => ⟨t.command, a⟩

/-- What a thread has returned is what is left of its program. -/
theorem Pool.threads_of_returned {P : Pool σ Q A α} {i : ℕ} {c : C} {a : α c}
    (h : P.returned i = some ⟨c, a⟩) : ∃ begun, P.threads i = some ⟨c, begun, .ret a⟩ := by
  match hi : P.threads i with
  | none => simp [Pool.returned, hi] at h
  | some ⟨c', begun, .call q k⟩ => simp [Pool.returned, hi, Program.result?] at h
  | some ⟨c', begun, .ret a'⟩ =>
    simp only [Pool.returned, hi, Option.bind_some, Program.result?_ret, Option.map_some,
      Option.some.injEq] at h
    cases h
    exact ⟨begun, rfl⟩

/-- No started thread still has something to do. -/
def Pool.Quiescent (P : Pool σ Q A α) : Prop :=
  ∀ i t, P.threads i = some t → t.program.result?.isSome = true

/-- What a step of a pool can do: start a thread, or answer the call of one. -/
theorem Pool.step_cases {serve : Server σ Ω Q A} {body : (c : C) → Program Q A (α c)}
    {P P' : Pool σ Q A α} {e : PoolEvent C Ω} (h : P.step serve body e = some P') :
    (∃ i c, e = .start i c ∧ P.threads i = none ∧
      P' = ⟨P.store, Function.update P.threads i (some ⟨c, P.store, body c⟩)⟩) ∨
    (∃ i ω c begun q k r s, e = .answer i ω ∧ P.threads i = some ⟨c, begun, .call q k⟩ ∧
      serve i P.store q ω = some (r, s) ∧
      P' = ⟨s, Function.update P.threads i (some ⟨c, begun, k r⟩)⟩) := by
  cases e with
  | start i c =>
    left
    cases hi : P.threads i with
    | some t => simp [Pool.step, hi] at h
    | none =>
      simp only [Pool.step, hi, Option.some.injEq] at h
      exact ⟨i, c, rfl, hi, h.symm⟩
  | answer i ω =>
    right
    match hi : P.threads i with
    | none => simp [Pool.step, hi] at h
    | some ⟨c, begun, .ret a⟩ => simp [Pool.step, hi] at h
    | some ⟨c, begun, .call q k⟩ =>
      simp only [Pool.step, hi, Option.map_eq_some_iff, Prod.exists] at h
      obtain ⟨r, s, hserve, hP'⟩ := h
      exact ⟨i, ω, c, begun, q, k, r, s, rfl, hi, hserve, hP'.symm⟩

/-- The thread an event is about. -/
def PoolEvent.thread {C Ω : Type*} : PoolEvent C Ω → ℕ
  | .start i _ | .answer i _ => i

/-- A step leaves the threads alone that it is not about. -/
theorem Pool.threads_of_step {serve : Server σ Ω Q A} {body : (c : C) → Program Q A (α c)}
    {P P' : Pool σ Q A α} {e : PoolEvent C Ω} (h : P.step serve body e = some P') {i : ℕ}
    (hi : i ≠ e.thread) : P'.threads i = P.threads i := by
  rcases Pool.step_cases h with ⟨j, c, rfl, -, rfl⟩ | ⟨j, ω, c, begun, q, k, r, s, rfl, -, -, rfl⟩
  · exact Function.update_of_ne hi _ _
  · exact Function.update_of_ne hi _ _

/-- A schedule starts no other threads than those it is about. -/
theorem Pool.threads_of_execWhile {serve : Server σ Ω Q A} {body : (c : C) → Program Q A (α c)}
    {ok : Pool σ Q A α → PoolEvent C Ω → Prop} [∀ P e, Decidable (ok P e)] {P P' : Pool σ Q A α}
    {es : List (PoolEvent C Ω)} (h : execWhile (Pool.step serve body) ok P es = some P') {i : ℕ}
    (hi : ∀ e ∈ es, i ≠ e.thread) : P'.threads i = P.threads i := by
  induction es generalizing P with
  | nil =>
    obtain rfl : P = P' := Option.some.inj h
    rfl
  | cons e es ih =>
    rw [execWhile] at h
    split at h
    · obtain ⟨T, hT, hrest⟩ := Option.bind_eq_some_iff.mp h
      rw [ih hrest fun e' he' => hi e' (List.mem_cons_of_mem _ he')]
      exact Pool.threads_of_step hT (hi e List.mem_cons_self)
    · cases h

/-- After a schedule that is about the first `n` threads, these decide whether all have
returned. -/
theorem Pool.quiescent_of_execWhile {serve : Server σ Ω Q A} {body : (c : C) → Program Q A (α c)}
    {ok : Pool σ Q A α → PoolEvent C Ω → Prop} [∀ P e, Decidable (ok P e)] {s : σ}
    {P : Pool σ Q A α} {es : List (PoolEvent C Ω)}
    (h : execWhile (Pool.step serve body) ok (Pool.initial s) es = some P) (n : ℕ)
    (hes : ∀ e ∈ es, e.thread < n)
    (hreturned : ∀ i < n, (P.threads i).all (fun t => t.program.result?.isSome) = true) :
    P.Quiescent := by
  intro i t hi
  rcases Nat.lt_or_ge i n with hlt | hge
  · simpa [hi] using hreturned i hlt
  · have hnone : P.threads i = none :=
      Pool.threads_of_execWhile h fun e he heq => absurd (hes e he) (by omega)
    rw [hnone] at hi
    cases hi

end Pool

/-! ## Which calls are made -/

/-- All calls that the program can make are of a kind. -/
inductive Program.Calls {Q : Type u} {A : Q → Type v} {α : Type w} (kind : Q → Prop) :
    Program Q A α → Prop
  | ret (a : α) : Calls kind (.ret a)
  | call {q : Q} {k : A q → Program Q A α} (hq : kind q) (hk : ∀ r, Calls kind (k r)) :
      Calls kind (.call q k)

namespace Program.Calls

variable {Q : Type u} {A : Q → Type v} {α β : Type w} {kind : Q → Prop}

theorem bind {p : Program Q A α} {f : α → Program Q A β} (hp : p.Calls kind)
    (hf : ∀ a, (f a).Calls kind) : (p >>= f).Calls kind := by
  induction hp with
  | ret a => exact hf a
  | call hq _ ih => exact .call hq ih

/-- A weaker kind. -/
theorem imp {kind' : Q → Prop} {p : Program Q A α} (hp : p.Calls kind)
    (hkind : ∀ q, kind q → kind' q) : p.Calls kind' := by
  induction hp with
  | ret a => exact .ret a
  | call hq _ ih => exact .call (hkind _ hq) ih

theorem perform {A : Q → Type w} {q : Q} (hq : kind q) :
    (Program.perform q : Program Q A (A q)).Calls kind :=
  .call hq fun r => .ret r

end Program.Calls

/-- The program can make a call, when its calls are answered as `answers` allows. -/
inductive Program.Makes {Q : Type u} {A : Q → Type v} {α : Type w}
    (answers : (q : Q) → A q → Prop) : Program Q A α → Q → Prop
  | here {q : Q} {k : A q → Program Q A α} : Makes answers (.call q k) q
  | later {q q' : Q} {k : A q → Program Q A α} {r : A q} (hr : answers q r)
      (h : Makes answers (k r) q') : Makes answers (.call q k) q'

section Makes

variable {Q : Type u} {A : Q → Type v} {α : Type w} {answers : (q : Q) → A q → Prop}

theorem Program.not_makes_ret {a : α} {q : Q} :
    ¬ (Program.ret a : Program Q A α).Makes answers q := by
  intro h
  cases h

/-- A program that makes a call makes it, and what it makes after an answer. -/
theorem Program.makes_call_iff {q q' : Q} {k : A q → Program Q A α} :
    (Program.call q k).Makes answers q' ↔
      q' = q ∨ ∃ r, answers q r ∧ (k r).Makes answers q' := by
  constructor
  · intro h
    cases h with
    | here => exact .inl rfl
    | later hr h => exact .inr ⟨_, hr, h⟩
  · rintro (rfl | ⟨r, hr, h⟩)
    · exact .here
    · exact .later hr h

end Makes

section Calls

variable {σ Ω C : Type*} {Q : Type u} {A : Q → Type v} {α : C → Type w}

/-- Only commands of a kind are started. -/
def Starts (started : C → Prop) : PoolEvent C Ω → Prop
  | .start _ c => started c
  | .answer _ _ => True

instance (started : C → Prop) [DecidablePred started] (e : PoolEvent C Ω) :
    Decidable (Starts started e) :=
  match e with
  | .start _ c => inferInstanceAs (Decidable (started c))
  | .answer _ _ => isTrue trivial

/-- When only commands of a kind are started, every thread runs one. -/
theorem started_of_starts {serve : Server σ Ω Q A} {body : (c : C) → Program Q A (α c)}
    {started : C → Prop} {ok : Pool σ Q A α → PoolEvent C Ω → Prop} {s : σ} {P : Pool σ Q A α}
    (hrun : RunWhile (Pool.step serve body) (fun P e => Starts started e ∧ ok P e)
      (Pool.initial s) P) {i : ℕ} {t : Thread σ Q A α} (hi : P.threads i = some t) :
    started t.command := by
  induction hrun generalizing t with
  | refl => simp [Pool.initial] at hi
  | tail _ hok hstep ih =>
    rcases Pool.step_cases hstep with ⟨j, c, rfl, -, rfl⟩ |
      ⟨j, ω, c, begun, q, k, r, u, rfl, hj, -, rfl⟩
    · by_cases hij : i = j
      · subst hij
        obtain rfl : _ = t := Option.some.inj (by simpa using hi)
        exact hok.1
      · exact ih (by simpa [hij] using hi)
    · by_cases hij : i = j
      · subst hij
        obtain rfl : _ = t := Option.some.inj (by simpa using hi)
        have hstarted := ih hj
        exact hstarted
      · exact ih (by simpa [hij] using hi)

/-- When only commands are started whose programs make calls of a kind, only such calls are
answered. -/
theorem allows_of_starts {serve : Server σ Ω Q A} {body : (c : C) → Program Q A (α c)}
    {started : C → Prop} {kind : Q → Prop} {allowed : ℕ → σ → Q → Ω → Prop} {s : σ}
    {P : Pool σ Q A α} (hbody : ∀ c, started c → (body c).Calls kind)
    (hrun : RunWhile (Pool.step serve body) (fun P e => Starts started e ∧ P.Allows allowed e)
      (Pool.initial s) P) :
    RunWhile (Pool.step serve body)
      (fun P e => P.Allows (fun i t q ω => kind q ∧ allowed i t q ω) e) (Pool.initial s) P := by
  refine hrun.strengthen (I := fun P => ∀ i t, P.threads i = some t → t.program.Calls kind)
    (fun i t hi => by simp [Pool.initial] at hi) ?_ ?_
  · intro T e T' hcalls hok hstep j t hj
    rcases Pool.step_cases hstep with ⟨i, c, rfl, -, rfl⟩ |
      ⟨i, ω, c, begun, q, k, r, u, rfl, hi, -, rfl⟩
    · by_cases hji : j = i
      · subst hji
        obtain rfl : _ = t := Option.some.inj (by simpa using hj)
        exact hbody c hok.1
      · exact hcalls j t (by simpa [hji] using hj)
    · by_cases hji : j = i
      · subst hji
        obtain rfl : _ = t := Option.some.inj (by simpa using hj)
        cases hcalls j _ hi with
        | call _ hk => exact hk r
      · exact hcalls j t (by simpa [hji] using hj)
  · intro T e T' hcalls hok hstep
    rcases Pool.step_cases hstep with
      ⟨i, c, rfl, -, -⟩ | ⟨i, ω, c, begun, q, k, r, u, rfl, hi, -, -⟩
    · trivial
    · have hallowed : allowed i T.store q ω := by simpa [Pool.Allows, hi] using hok.2
      have hkind : kind q := by
        cases hcalls i _ hi with
        | call hq _ => exact hq
      simpa [Pool.Allows, hi] using And.intro hkind hallowed

end Calls

/-! ## Protocols -/

/-- What the threads of a pool agree on. -/
structure Protocol (σ : Type*) where
  /-- Holds of the store at every moment. -/
  inv : σ → Prop
  /-- What thread `i` may count on between two of its own calls. -/
  rely : ℕ → σ → σ → Prop
  rely_refl : ∀ i s, rely i s s
  rely_trans : ∀ i s t u, rely i s t → rely i t u → rely i s u

section Protocol

variable {σ Ω C : Type*} {Q : Type u} {A : Q → Type v} {α : C → Type w}

variable (K : Protocol σ) (serve : Server σ Ω Q A) (allowed : ℕ → σ → Q → Ω → Prop) (i : ℕ)

/-- The program keeps to the protocol when thread `i` goes on with it in a store, and ends with
`post`: whatever the others do in between, each call keeps the invariant and what the others rely
on. -/
def Safe {γ : Type*} (post : σ → γ → Prop) : Program Q A γ → σ → Prop
  | .ret a, s => ∀ t, K.rely i s t → K.inv t → post t a
  | .call q k, s => ∀ t ω r u, K.rely i s t → K.inv t → allowed i t q ω →
      serve i t q ω = some (r, u) →
      K.inv u ∧ (∀ j, j ≠ i → K.rely j t u) ∧ Safe post (k r) u

variable {K serve allowed i} {γ δ : Type w} {post : σ → γ → Prop}

/-- What the others do leaves a program safe. -/
theorem Safe.of_rely {p : Program Q A γ} {s t : σ} (h : Safe K serve allowed i post p s)
    (hst : K.rely i s t) : Safe K serve allowed i post p t := by
  cases p with
  | ret a => exact fun t' ht => h t' (K.rely_trans i _ _ _ hst ht)
  | call q k => exact fun t' ω r u ht => h t' ω r u (K.rely_trans i _ _ _ hst ht)

/-- A program is safe when it is safe in every store the others may leave behind. -/
theorem safe_of_forall {p : Program Q A γ} {s : σ}
    (h : ∀ t, K.rely i s t → K.inv t → Safe K serve allowed i post p t) :
    Safe K serve allowed i post p s := by
  cases p with
  | ret a => exact fun t ht hinv => h t ht hinv t (K.rely_refl i t) hinv
  | call q k => exact fun t ω r u ht hinv => h t ht hinv t ω r u (K.rely_refl i t) hinv

/-- Sequencing: what comes first ends in a store in which what comes after is safe. -/
theorem Safe.bind {mid : σ → γ → Prop} {post : σ → δ → Prop} {p : Program Q A γ}
    {f : γ → Program Q A δ} {s : σ} (h : Safe K serve allowed i mid p s)
    (hf : ∀ t a, mid t a → Safe K serve allowed i post (f a) t) :
    Safe K serve allowed i post (p >>= f) s := by
  induction p generalizing s with
  | ret a => exact safe_of_forall fun t ht hinv => hf t a (h t ht hinv)
  | call q k ih =>
    intro t ω r u ht hinv hok hserve
    obtain ⟨hinv', hrely, hsafe⟩ := h t ω r u ht hinv hok hserve
    exact ⟨hinv', hrely, ih r hsafe⟩

/-- A stronger postcondition. -/
theorem Safe.imp {post' : σ → γ → Prop} {p : Program Q A γ} {s : σ}
    (h : Safe K serve allowed i post p s) (hpost : ∀ t a, post t a → post' t a) :
    Safe K serve allowed i post' p s := by
  induction p generalizing s with
  | ret a => exact fun t ht hinv => hpost t a (h t ht hinv)
  | call q k ih =>
    intro t ω r u ht hinv hok hserve
    obtain ⟨hinv', hrely, hsafe⟩ := h t ω r u ht hinv hok hserve
    exact ⟨hinv', hrely, ih r hsafe⟩

/-! ## Pools under a protocol -/

variable {body : (c : C) → Program Q A (α c)} {P P' : Pool σ Q A α} {idle : ℕ → σ → Prop}
  {done : ℕ → (c : C) → σ → σ → α c → Prop}

/-- The pool keeps to the protocol: the invariant holds, a thread that has not been started meets
`idle`, and one that was started with `c` in a store `s` is safe with the postcondition
`done i c s`. -/
structure Sound (K : Protocol σ) (serve : Server σ Ω Q A) (allowed : ℕ → σ → Q → Ω → Prop)
    (idle : ℕ → σ → Prop) (done : ℕ → (c : C) → σ → σ → α c → Prop) (P : Pool σ Q A α) :
    Prop where
  inv : K.inv P.store
  idle : ∀ i, P.threads i = none → idle i P.store
  safe : ∀ i t, P.threads i = some t →
    Safe K serve allowed i (done i t.command t.begun) t.program P.store

/-- A pool in which nothing has been started keeps to the protocol. -/
theorem sound_initial {s : σ} (hinv : K.inv s) (hidle : ∀ i, idle i s) :
    Sound K serve allowed idle done (Pool.initial s : Pool σ Q A α) :=
  ⟨hinv, fun i _ => hidle i, fun i t ht => by simp [Pool.initial] at ht⟩

/-- Only commands are started that their thread may be started with. -/
def PoolEvent.StartsIn (started : ℕ → C → Prop) : PoolEvent C Ω → Prop
  | .start i c => started i c
  | .answer _ _ => True

theorem PoolEvent.startsIn_of_forall {started : ℕ → C → Prop} (h : ∀ i c, started i c)
    (e : PoolEvent C Ω) : e.StartsIn started := by
  cases e with
  | start i c => exact h i c
  | answer i ω => trivial

/-- Every step keeps to the protocol if every command that may be started does. -/
theorem Sound.step_startsIn {started : ℕ → C → Prop}
    (hrely : ∀ i s t, K.rely i s t → idle i s → idle i t)
    (hbody : ∀ i c s, started i c → K.inv s → idle i s →
      Safe K serve allowed i (done i c s) (body c) s)
    (h : Sound K serve allowed idle done P) {e : PoolEvent C Ω} (hstarts : e.StartsIn started)
    (hok : P.Allows allowed e) (hstep : P.step serve body e = some P') :
    Sound K serve allowed idle done P' := by
  rcases Pool.step_cases hstep with ⟨i, c, rfl, hi, rfl⟩ |
    ⟨i, ω, c, begun, q, k, r, s, rfl, hi, hserve, rfl⟩
  · refine ⟨h.inv, fun j hj => ?_, fun j t hj => ?_⟩
    · by_cases hji : j = i
      · subst hji
        exact h.idle j hi
      · exact h.idle j (by simpa [hji] using hj)
    · by_cases hji : j = i
      · subst hji
        obtain rfl : _ = t := Option.some.inj (by simpa using hj)
        exact hbody j c _ hstarts h.inv (h.idle j hi)
      · exact h.safe j t (by simpa [hji] using hj)
  · have hallowed : allowed i P.store q ω := by simpa [Pool.Allows, hi] using hok
    obtain ⟨hinv, hothers, hsafe⟩ :=
      h.safe i _ hi P.store ω r s (K.rely_refl i _) h.inv hallowed hserve
    refine ⟨hinv, fun j hj => ?_, fun j t hj => ?_⟩
    · by_cases hji : j = i
      · subst hji
        simp at hj
      · exact hrely j _ _ (hothers j hji) (h.idle j (by simpa [hji] using hj))
    · by_cases hji : j = i
      · subst hji
        obtain rfl : _ = t := Option.some.inj (by simpa using hj)
        exact hsafe
      · exact (h.safe j t (by simpa [hji] using hj)).of_rely (hothers j hji)

/-- Every step keeps to the protocol if every command, when started, does. -/
theorem Sound.step (hrely : ∀ i s t, K.rely i s t → idle i s → idle i t)
    (hbody : ∀ i c s, K.inv s → idle i s → Safe K serve allowed i (done i c s) (body c) s)
    (h : Sound K serve allowed idle done P) {e : PoolEvent C Ω} (hok : P.Allows allowed e)
    (hstep : P.step serve body e = some P') : Sound K serve allowed idle done P' := by
  have hstarts : e.StartsIn fun (_ : ℕ) (_ : C) => True :=
    PoolEvent.startsIn_of_forall (fun _ _ => trivial) e
  exact h.step_startsIn hrely (fun i c s _ => hbody i c s) hstarts hok hstep

/-- Rely-guarantee rule: if every command, when started, is safe, then every run of the pool
keeps to the protocol. -/
theorem sound_of_run (hrely : ∀ i s t, K.rely i s t → idle i s → idle i t)
    (hbody : ∀ i c s, K.inv s → idle i s → Safe K serve allowed i (done i c s) (body c) s)
    (h : Sound K serve allowed idle done P)
    (hrun : RunWhile (Pool.step serve body) (fun P e => P.Allows allowed e) P P') :
    Sound K serve allowed idle done P' :=
  hrun.invariant h fun _ _ _ hP hok hstep => hP.step hrely hbody hok hstep

/-- The commands of a run are known in advance: some function says with what each thread is
started. -/
theorem exists_commands [Nonempty C] {ok : Pool σ Q A α → PoolEvent C Ω → Prop} {s : σ}
    (hrun : RunWhile (Pool.step serve body) ok (Pool.initial s) P) :
    ∃ commands : ℕ → C, (∀ i t, P.threads i = some t → t.command = commands i) ∧
      RunWhile (Pool.step serve body)
        (fun P e => e.StartsIn (fun i c => c = commands i) ∧ ok P e) (Pool.initial s) P := by
  suffices h : ∃ commands : ℕ → C, ∀ chosen : ℕ → C,
      (∀ i t, P.threads i = some t → chosen i = commands i) →
        (∀ i t, P.threads i = some t → t.command = chosen i) ∧
          RunWhile (Pool.step serve body)
            (fun P e => e.StartsIn (fun i c => c = chosen i) ∧ ok P e) (Pool.initial s) P by
    obtain ⟨commands, hcommands⟩ := h
    exact ⟨commands, hcommands commands fun _ _ _ => rfl⟩
  induction hrun with
  | refl =>
    obtain ⟨c⟩ := ‹Nonempty C›
    exact ⟨fun _ => c, fun chosen _ => ⟨fun i t hi => by simp [Pool.initial] at hi, .refl⟩⟩
  | tail _ hok hstep ih =>
    obtain ⟨commands, hcommands⟩ := ih
    rcases Pool.step_cases hstep with ⟨i, c, rfl, hi, rfl⟩ |
      ⟨i, ω, c, begun, q, k, r, u, rfl, hi, -, rfl⟩
    · -- no choice for the thread that starts matters before
      refine ⟨Function.update commands i c, fun chosen hchosen => ?_⟩
      have hc : chosen i = c :=
        (hchosen i _ (Function.update_self i _ _)).trans (Function.update_self i _ _)
      have hbefore := hcommands chosen fun j t hj => by
        have hji : j ≠ i := by
          rintro rfl
          rw [hi] at hj
          cases hj
        simpa [hji] using hchosen j t (by simpa [hji] using hj)
      refine ⟨fun j t hj => ?_, hbefore.2.tail (e := .start i c) ⟨hc.symm, hok⟩ hstep⟩
      by_cases hji : j = i
      · subst hji
        obtain rfl : _ = t := Option.some.inj (by simpa using hj)
        exact hc.symm
      · exact hbefore.1 j t (by simpa [hji] using hj)
    · refine ⟨commands, fun chosen hchosen => ?_⟩
      have hbefore := hcommands chosen fun j t hj => by
        by_cases hji : j = i
        · subst hji
          exact hchosen j _ (Function.update_self j _ _)
        · exact hchosen j t (by simpa [hji] using hj)
      refine ⟨fun j t hj => ?_, hbefore.2.tail (e := .answer i ω) ⟨trivial, hok⟩ hstep⟩
      by_cases hji : j = i
      · subst hji
        obtain rfl : _ = t := Option.some.inj (by simpa using hj)
        exact hbefore.1 j ⟨c, begun, .call q k⟩ hi
      · exact hbefore.1 j t (by simpa [hji] using hj)

/-- In a pool that keeps to the protocol a thread that has returned meets its postcondition. -/
theorem Sound.done_of_ret (h : Sound K serve allowed idle done P) {i : ℕ} {c : C} {begun : σ}
    {a : α c} (hi : P.threads i = some ⟨c, begun, .ret a⟩) : done i c begun P.store a :=
  h.safe i _ hi P.store (K.rely_refl i _) h.inv

/-- A thread was started in the store in which it appears. -/
theorem Pool.begun_of_step {e : PoolEvent C Ω} (hstep : P.step serve body e = some P') {i : ℕ}
    {t : Thread σ Q A α} (hi : P'.threads i = some t) :
    (P.threads i = none ∧ t.begun = P.store) ∨
      ∃ t', P.threads i = some t' ∧ t'.begun = t.begun := by
  rcases Pool.step_cases hstep with ⟨j, c, rfl, hj, rfl⟩ |
    ⟨j, ω, c, begun, q, k, r, s, rfl, hj, -, rfl⟩
  · by_cases hij : i = j
    · subst hij
      obtain rfl : _ = t := Option.some.inj (by simpa using hi)
      exact .inl ⟨hj, rfl⟩
    · exact .inr ⟨t, by simpa [hij] using hi, rfl⟩
  · by_cases hij : i = j
    · subst hij
      obtain rfl : _ = t := Option.some.inj (by simpa using hi)
      exact .inr ⟨_, hj, rfl⟩
    · exact .inr ⟨t, by simpa [hij] using hi, rfl⟩

/-- What the threads rely on relates the stores before and after a step. -/
theorem Sound.relates_step {R : σ → σ → Prop} (hrefl : ∀ s, R s s)
    (hR : ∀ i s t, K.rely i s t → R s t) (h : Sound K serve allowed idle done P)
    {e : PoolEvent C Ω} (hok : P.Allows allowed e) (hstep : P.step serve body e = some P') :
    R P.store P'.store := by
  rcases Pool.step_cases hstep with ⟨i, c, rfl, hi, rfl⟩ |
    ⟨i, ω, c, begun, q, k, r, s, rfl, hi, hserve, rfl⟩
  · exact hrefl _
  · have hallowed : allowed i P.store q ω := by simpa [Pool.Allows, hi] using hok
    obtain ⟨-, hothers, -⟩ :=
      h.safe i _ hi P.store ω r s (K.rely_refl i _) h.inv hallowed hserve
    -- any thread but the one that moved relies on the step
    exact hR (i + 1) _ _ (hothers (i + 1) (by omega))

/-- A reflexive and transitive relation that the threads rely on relates the ends of a run, and
its first end to the stores in which threads are started during it. -/
theorem Sound.relates_of_run {R : σ → σ → Prop} (hrefl : ∀ s, R s s)
    (htrans : ∀ s t u, R s t → R t u → R s u) (hR : ∀ i s t, K.rely i s t → R s t)
    (hrely : ∀ i s t, K.rely i s t → idle i s → idle i t)
    (hbody : ∀ i c s, K.inv s → idle i s → Safe K serve allowed i (done i c s) (body c) s)
    (h : Sound K serve allowed idle done P)
    (hrun : RunWhile (Pool.step serve body) (fun P e => P.Allows allowed e) P P') :
    R P.store P'.store ∧
      ∀ i t, P.threads i = none → P'.threads i = some t → R P.store t.begun := by
  induction hrun with
  | refl => exact ⟨hrefl _, fun i t hnone hsome => absurd (hnone.symm.trans hsome) (by simp)⟩
  | tail hrun hok hstep ih =>
    obtain ⟨hrel, hbegun⟩ := ih
    have hsound := sound_of_run hrely hbody h hrun
    refine ⟨htrans _ _ _ hrel (hsound.relates_step hrefl hR hok hstep), fun i t hnone hi => ?_⟩
    rcases Pool.begun_of_step hstep hi with ⟨-, hbegun'⟩ | ⟨t', ht', hbegun'⟩
    · rw [hbegun']
      exact hrel
    · rw [← hbegun']
      exact hbegun i t' hnone ht'

end Protocol

end Concurrency
