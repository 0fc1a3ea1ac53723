import Verixa.SharedKernel.Record

/-!
# Collecting validation errors

`ValidationErrorAggregator` merges the errors of several checks, field by field, so that a caller
hears of everything that is wrong at once.  Nothing that is merged is lost (`messages_merge`), and
there are errors exactly if something was merged (`hasErrors_merge`).
-/

namespace Verixa

/-- The messages collected for each field, in the order in which fields were first merged. -/
structure ValidationErrorAggregator where
  fieldErrors : OrderedMap String (List String)

namespace ValidationErrorAggregator

/-- `new ValidationErrorAggregator()`. -/
def empty : ValidationErrorAggregator := ⟨OrderedMap.empty⟩

/-- What was collected for a field. -/
def messages (errors : ValidationErrorAggregator) (field : String) : List String :=
  (errors.fieldErrors.get? field).getD []

/-- Merges the messages of one field. -/
def mergeField (errors : ValidationErrorAggregator) (field : String × List String) :
    ValidationErrorAggregator :=
  ⟨errors.fieldErrors.set field.1 (errors.messages field.1 ++ field.2)⟩

/-- Merges a map of field errors. -/
def merge (errors : ValidationErrorAggregator) (fieldErrors : List (String × List String)) :
    ValidationErrorAggregator :=
  fieldErrors.foldl mergeField errors

def hasErrors (errors : ValidationErrorAggregator) : Bool := !errors.fieldErrors.entries.isEmpty

def toError (errors : ValidationErrorAggregator) (message : String) : ValidationError :=
  ⟨message, errors.fieldErrors.entries⟩

variable {errors : ValidationErrorAggregator} {field : String}
  {fieldErrors : List (String × List String)}

theorem hasErrors_iff : errors.hasErrors = true ↔ errors.fieldErrors.entries ≠ [] := by
  simp [hasErrors]

@[simp] theorem hasErrors_empty : empty.hasErrors = false := rfl

@[simp] theorem messages_empty (field : String) : empty.messages field = [] := rfl

@[simp] theorem merge_nil : errors.merge [] = errors := rfl

theorem merge_cons (first : String × List String) :
    errors.merge (first :: fieldErrors) = (errors.mergeField first).merge fieldErrors := rfl

/-- Merging twice. -/
theorem merge_merge (later : List (String × List String)) :
    (errors.merge fieldErrors).merge later = errors.merge (fieldErrors ++ later) := by
  rw [merge, merge, merge, List.foldl_append]

theorem hasErrors_mergeField (first : String × List String) :
    (errors.mergeField first).hasErrors = true := by
  rw [hasErrors_iff]
  intro hnone
  have hmem : first.1 ∈ (errors.mergeField first).fieldErrors.keys :=
    OrderedMap.mem_keys_iff.mpr ⟨_, by rw [mergeField, OrderedMap.get?_set, if_pos rfl]⟩
  simp [OrderedMap.keys, hnone] at hmem

/-- There are errors exactly if there were some or some are merged. -/
theorem hasErrors_merge :
    (errors.merge fieldErrors).hasErrors = (errors.hasErrors || !fieldErrors.isEmpty) := by
  induction fieldErrors generalizing errors with
  | nil => simp
  | cons first rest ih => rw [merge_cons, ih, hasErrors_mergeField]; simp

/-- Merging on a condition. -/
theorem ite_merge (condition : Prop) [Decidable condition] :
    (if condition then errors.merge fieldErrors else errors) =
      errors.merge (if condition then fieldErrors else []) := by
  split <;> rfl

/-- A loop that merges what it finds wrong with each item. -/
theorem foldl_merge {α : Type*} (problems : α → List (String × List String)) (items : List α) :
    items.foldl (fun errors item => errors.merge (problems item)) errors =
      errors.merge (items.flatMap problems) := by
  induction items generalizing errors with
  | nil => rfl
  | cons item items ih => rw [List.foldl_cons, ih, merge_merge, List.flatMap_cons]

/-- What a list of field errors says of a field. -/
def messagesIn (fieldErrors : List (String × List String)) (field : String) : List String :=
  (fieldErrors.filter fun entry => entry.1 = field).flatMap Prod.snd

/-- What is merged is added to what was collected, field by field. -/
theorem messages_merge :
    (errors.merge fieldErrors).messages field =
      errors.messages field ++ messagesIn fieldErrors field := by
  induction fieldErrors generalizing errors with
  | nil => simp [messagesIn]
  | cons first rest ih =>
    rw [merge_cons, ih]
    by_cases hfirst : first.1 = field
    · subst hfirst
      simp [messages, mergeField, messagesIn]
    · simp [messages, mergeField, messagesIn, OrderedMap.get?_set, hfirst]

/-- What holds of every field that is merged, and of those before, holds of every field. -/
theorem forall_mem_merge {good : String × List String → Prop}
    (hgood : ∀ field messages more, good (field, messages) → good (field, messages ++ more))
    (h : ∀ entry ∈ errors.fieldErrors.entries, good entry)
    (hmerged : ∀ entry ∈ fieldErrors, good entry) :
    ∀ entry ∈ (errors.merge fieldErrors).fieldErrors.entries, good entry := by
  induction fieldErrors generalizing errors with
  | nil => exact h
  | cons first rest ih =>
    rw [merge_cons]
    refine ih (fun entry hentry => ?_) fun entry hentry => hmerged entry (.tail _ hentry)
    obtain ⟨field, all⟩ := entry
    have hall := OrderedMap.get?_eq_some_iff.mpr hentry
    rw [mergeField, OrderedMap.get?_set] at hall
    split at hall
    · rename_i hfirst
      obtain rfl := Option.some.inj hall
      subst hfirst
      rw [messages]
      cases hbefore : errors.fieldErrors.get? first.1 with
      | none => exact hmerged first List.mem_cons_self
      | some before =>
        exact hgood _ _ _ (h _ (OrderedMap.get?_eq_some_iff.mp hbefore))
    · exact h _ (OrderedMap.get?_eq_some_iff.mp hall)

/-- An error says of a field what was collected. -/
theorem errorsOf_toError (message : String) :
    (errors.toError message).errorsOf field = errors.messages field := rfl

end ValidationErrorAggregator

end Verixa
