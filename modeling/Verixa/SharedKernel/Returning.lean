import Verixa.SharedKernel.Errors

/-!
# Computations that return a result or throw

A function that reports what it refuses as an error result may still throw, where it calls
something that throws and does not catch it.  `Returns` says that it does not.  The rules below
follow the ways such a function is put together.
-/

namespace Verixa

universe u

/-- A computation that returns a `Result`, unless it throws. -/
abbrev Returning (ε α : Type u) := ExceptT ε (Except ThrownError) α

namespace Returning

variable {ε α β : Type u}

/-- The computation returns the error. -/
def refuse (error : ε) : Returning ε α := ExceptT.mk (.ok (.error error))

/-- A call whose exceptions are passed on. -/
def raised (call : Except ThrownError α) : Returning ε α := ExceptT.mk (call.map .ok)

/-- A call whose exceptions are caught and reported. -/
def caught (call : Except ThrownError α) (report : ThrownError → ε) : Returning ε α :=
  match call with
  | .ok a => pure a
  | .error error => refuse (report error)

/-- Refuse if the condition holds. -/
def refuseIf (condition : Bool) (error : ε) : Returning ε PUnit :=
  if condition then refuse error else pure ⟨⟩

/-- The computation does not throw. -/
def Returns (x : Returning ε α) : Prop := ∃ result, x.run = .ok result

/-- The computation goes on with a value. -/
def Yields (x : Returning ε α) (a : α) : Prop := x.run = .ok (.ok a)

theorem returns_pure (a : α) : Returns (pure a : Returning ε α) := ⟨.ok a, rfl⟩

theorem returns_refuse (error : ε) : Returns (refuse error : Returning ε α) := ⟨.error error, rfl⟩

theorem yields_pure_iff {a b : α} : Yields (pure a : Returning ε α) b ↔ a = b := by
  simp [Yields, pure, ExceptT.pure, ExceptT.run, ExceptT.mk, Except.pure]

theorem not_yields_refuse (error : ε) (a : α) : ¬ Yields (refuse error) a := by
  simp [Yields, refuse]

/-- A sequence returns if its first part does, and the rest does for whatever it goes on with. -/
theorem returns_bind_iff {x : Returning ε α} {f : α → Returning ε β} :
    Returns (x >>= f) ↔ Returns x ∧ ∀ a, Yields x a → Returns (f a) := by
  unfold Returns Yields
  rw [ExceptT.run_bind]
  rcases x.run with error | (error | a)
  · simp [bind, Except.bind]
  · simp [bind, Except.bind, pure, Except.pure]
  · simp [bind, Except.bind]

theorem returns_bind {x : Returning ε α} {f : α → Returning ε β} (h : Returns x)
    (hf : ∀ a, Yields x a → Returns (f a)) : Returns (x >>= f) :=
  returns_bind_iff.mpr ⟨h, hf⟩

/-- A sequence goes on with what the rest does after the first part. -/
theorem yields_bind_iff {x : Returning ε α} {f : α → Returning ε β} {b : β} :
    Yields (x >>= f) b ↔ ∃ a, Yields x a ∧ Yields (f a) b := by
  unfold Yields
  rw [ExceptT.run_bind]
  rcases x.run with error | (error | a)
  · simp [bind, Except.bind]
  · simp [bind, Except.bind, pure, Except.pure]
  · simp [bind, Except.bind]

/-- A sequence whose first part goes on does what the rest does. -/
theorem yields_bind_of_yields {x : Returning ε α} {f : α → Returning ε β} {a : α} {b : β}
    (h : Yields x a) : Yields (x >>= f) b ↔ Yields (f a) b := by
  unfold Yields at h ⊢
  rw [ExceptT.run_bind, h]
  rfl

/-- What returns and goes on with no value returns an error. -/
theorem exists_error_of_returns {x : Returning ε α} (h : Returns x) (hnone : ∀ a, ¬Yields x a) :
    ∃ error, x.run = .ok (.error error) := by
  obtain ⟨result, hresult⟩ := h
  cases result with
  | error error => exact ⟨error, hresult⟩
  | ok a => exact absurd hresult (hnone a)

theorem yields_raised_iff {call : Except ThrownError α} {a : α} :
    Yields (raised call : Returning ε α) a ↔ call = .ok a := by
  cases call <;> simp [Yields, raised, Except.map]

theorem returns_raised_iff {call : Except ThrownError α} :
    Returns (raised call : Returning ε α) ↔ ∃ a, call = .ok a := by
  cases call <;> simp [Returns, raised, Except.map]

theorem returns_caught (call : Except ThrownError α) (report : ThrownError → ε) :
    Returns (caught call report) := by
  cases call with
  | ok a => exact returns_pure a
  | error error => exact returns_refuse _

theorem yields_caught_iff {call : Except ThrownError α} {report : ThrownError → ε} {a : α} :
    Yields (caught call report) a ↔ call = .ok a := by
  cases call with
  | ok b => simp [caught, yields_pure_iff]
  | error error => simp [caught, not_yields_refuse]

theorem returns_refuseIf (condition : Bool) (error : ε) : Returns (refuseIf condition error) := by
  cases condition
  · exact returns_pure _
  · exact returns_refuse error

theorem yields_refuseIf_iff {condition : Bool} {error : ε} {a : PUnit} :
    Yields (refuseIf condition error) a ↔ condition = false := by
  cases condition with
  | false => simp [refuseIf, yields_pure_iff]
  | true => simp [refuseIf, not_yields_refuse]

end Returning

end Verixa
