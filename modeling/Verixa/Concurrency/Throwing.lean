import Verixa.Concurrency.Program

/-!
# Programs that may throw

A program that returns an `Except ε α` throws what is no value.  `awaiting` goes on with the value
and throws on what is thrown; the rules for walking through programs follow.
-/

namespace Concurrency

universe u v

/-- A program that returns a value or throws. -/
abbrev ThrowingProgram (Q : Type u) (A : Q → Type v) (ε α : Type*) := Program Q A (Except ε α)

section

variable {Q : Type u} {A : Q → Type v} {ε α β : Type}

/-- `return value`. -/
def returning (value : α) : ThrowingProgram Q A ε α := .ret (.ok value)

/-- `await`: what is thrown is thrown on. -/
def awaiting (method : ThrowingProgram Q A ε α) (rest : α → ThrowingProgram Q A ε β) :
    ThrowingProgram Q A ε β :=
  Program.bind method fun
    | .error fault => .ret (.error fault)
    | .ok value => rest value

/-- The calls of both parts are of a kind. -/
theorem Program.Calls.awaiting {kind : Q → Prop} {method : ThrowingProgram Q A ε α}
    {rest : α → ThrowingProgram Q A ε β} (hmethod : method.Calls kind)
    (hrest : ∀ value, (rest value).Calls kind) : (awaiting method rest).Calls kind := by
  refine Program.Calls.bind hmethod fun outcome => ?_
  cases outcome with
  | error fault => exact .ret _
  | ok value => exact hrest value

variable {σ Ω : Type*} {K : Protocol σ} {serve : Server σ Ω Q A}
  {allowed : ℕ → σ → Q → Ω → Prop} {i : ℕ}

/-- Sequencing: with what is thrown the program ends, with a value it goes on. -/
theorem Safe.awaiting {mid : σ → Except ε α → Prop} {post : σ → Except ε β → Prop}
    {method : ThrowingProgram Q A ε α} {rest : α → ThrowingProgram Q A ε β} {s : σ}
    (hmethod : Safe K serve allowed i mid method s)
    (hthrown : ∀ t fault, mid t (.error fault) →
      Safe K serve allowed i post (.ret (.error fault)) t)
    (hrest : ∀ t value, mid t (.ok value) → Safe K serve allowed i post (rest value) t) :
    Safe K serve allowed i post (awaiting method rest) s := by
  refine Safe.bind hmethod fun t outcome hmid => ?_
  cases outcome with
  | error fault => exact hthrown t fault hmid
  | ok value => exact hrest t value hmid

end

end Concurrency
