import Verixa.Concurrency.Program

/-!
# Programs whose calls are answered by a function

When the answer to every call is determined by a state, a program that runs alone has one result.
`Program.evaluate` is that result, with the state it leaves.
-/

namespace Concurrency

universe u v w

namespace Program

variable {σ : Type*} {Q : Type u} {A : Q → Type v} {α β : Type w}

/-- What a program returns, and the state it leaves, when `answer` answers its calls. -/
def evaluate (answer : σ → (q : Q) → A q × σ) : Program Q A α → σ → α × σ
  | .ret a, s => (a, s)
  | .call q k, s => (k (answer s q).1).evaluate answer (answer s q).2

variable (answer : σ → (q : Q) → A q × σ) (s : σ)

@[simp] theorem evaluate_ret (a : α) : (ret a : Program Q A α).evaluate answer s = (a, s) := rfl

@[simp] theorem evaluate_call (q : Q) (k : A q → Program Q A α) :
    (call q k).evaluate answer s = (k (answer s q).1).evaluate answer (answer s q).2 := rfl

@[simp] theorem evaluate_bind (p : Program Q A α) (f : α → Program Q A β) :
    (p >>= f).evaluate answer s =
      (f (p.evaluate answer s).1).evaluate answer (p.evaluate answer s).2 := by
  induction p generalizing s with
  | ret a => rfl
  | call q k ih => exact ih (answer s q).1 (answer s q).2

@[simp] theorem evaluate_perform {A : Q → Type w} (answer : σ → (q : Q) → A q × σ) (q : Q) :
    (perform q : Program Q A (A q)).evaluate answer s = answer s q := rfl

end Program

end Concurrency
