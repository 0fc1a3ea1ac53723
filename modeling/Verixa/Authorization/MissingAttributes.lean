import Verixa.Authorization.Condition

/-!
# Missing attributes

A comparison of a missing attribute fails, whatever its operator, also that of `neq`.  So without a
negation a condition can only gain by further attributes: what is true of some attributes stays true
when more are resolved, and an attribute that is not resolved makes nothing true.
-/

namespace Verixa.Authorization

/-! ## Contexts with more attributes -/

/-- The value with further attributes in its records, and otherwise the same. -/
inductive AttributeValue.ExtendedBy : AttributeValue → AttributeValue → Prop
  | same (value : AttributeValue) : ExtendedBy value value
  | record {fields fields' : List (String × AttributeValue)}
      (extension : String → AttributeValue → AttributeValue)
      (keeps : ∀ key value, (key, value) ∈ fields → (key, extension key value) ∈ fields')
      (extended : ∀ key value, (key, value) ∈ fields → ExtendedBy value (extension key value)) :
      ExtendedBy (.record fields) (.record fields')

/-- A bag with further attributes: none is changed, and none is added under the name of a property
that plain objects inherit. -/
structure AttributeBag.ExtendedBy (bag bag' : AttributeBag) : Prop where
  keeps : ∀ key value, bag.own.get? key = some value →
    ∃ value', bag'.own.get? key = some value' ∧ value.ExtendedBy value'
  adds : ∀ key ∈ inheritedKeys, bag.own.get? key = none → bag'.own.get? key = none

/-- A context with further attributes. -/
def AttributeContext.ExtendedBy (context context' : AttributeContext) : Prop :=
  ∀ name, (context.bag name).ExtendedBy (context'.bag name)

/-- What is read of a property, with further attributes in it. -/
inductive Resolved.ExtendedBy : Resolved → Resolved → Prop
  | value {value value' : AttributeValue} (extended : value.ExtendedBy value') :
      ExtendedBy (.value value) (.value value')
  | inherited (key : String) : ExtendedBy (.inherited key) (.inherited key)

/-- A property that is read stays readable. -/
theorem AttributeBag.ExtendedBy.property {bag bag' : AttributeBag} (h : bag.ExtendedBy bag')
    {key : String} {actual : Resolved} (hactual : bag.property key = some actual) :
    ∃ actual', bag'.property key = some actual' ∧ actual.ExtendedBy actual' := by
  unfold AttributeBag.property at hactual ⊢
  split at hactual
  · rename_i value hown
    obtain ⟨value', hown', hvalue⟩ := h.keeps key value hown
    obtain rfl := Option.some.inj hactual
    rw [hown']
    exact ⟨.value value', rfl, .value hvalue⟩
  · rename_i hown
    split at hactual
    · rename_i hinherited
      obtain rfl := Option.some.inj hactual
      rw [h.adds key hinherited hown]
      exact ⟨.inherited key, if_pos hinherited, .inherited key⟩
    · exact nomatch hactual

theorem AttributeContext.ExtendedBy.resolve {context context' : AttributeContext}
    (h : context.ExtendedBy context') {path : String} {actual : Resolved}
    (hactual : context.resolve path = some actual) :
    ∃ actual', context'.resolve path = some actual' ∧ actual.ExtendedBy actual' := by
  unfold AttributeContext.resolve at hactual ⊢
  split at hactual
  · exact nomatch hactual
  · rename_i name key haddress
    exact (h name).property hactual

/-! ## Comparisons -/

/-- Attributes inside of a record make no difference to a comparison with a literal. -/
theorem compareResolved_extendedBy (dateParse : String → Option ℤ) {actual actual' : Resolved}
    (h : actual.ExtendedBy actual') (operator : ComparisonOperator)
    (literal : ComparisonLiteral) :
    compareResolved dateParse actual' operator literal =
      compareResolved dateParse actual operator literal := by
  obtain ⟨⟨value⟩ | _⟩ | key := h
  · rfl
  · cases operator <;> cases literal <;> rfl
  · rfl

/-- What a comparison finds true stays true. -/
theorem evaluateComparison_of_extendedBy (dateParse : String → Option ℤ)
    {context context' : AttributeContext} (h : context.ExtendedBy context')
    (comparison : ComparisonCondition)
    (htrue : evaluateComparison dateParse comparison context = true) :
    evaluateComparison dateParse comparison context' = true := by
  unfold evaluateComparison at htrue ⊢
  split at htrue
  · exact nomatch htrue
  · rename_i actual hactual
    obtain ⟨actual', hactual', hextended⟩ := h.resolve hactual
    rw [hactual']
    change compareResolved dateParse actual' _ _ = true
    rw [compareResolved_extendedBy dateParse hextended]
    exact htrue

/-! ## Conditions without negation -/

namespace Condition

mutual

/-- The condition has no negation in it. -/
def notFree : Condition → Bool
  | .always => true
  | .comparison _ => true
  | .and operands => notFreeOperands operands
  | .or operands => notFreeOperands operands
  | .not _ => false

/-- The operands have no negation in them. -/
def notFreeOperands : List Condition → Bool
  | [] => true
  | operand :: operands => operand.notFree && notFreeOperands operands

end

end Condition

section Evaluation

variable (dateParse : String → Option ℤ) {context context' : AttributeContext}

mutual

/-- By induction on the condition: a comparison gains by further attributes, and conjunction and
disjunction keep that. -/
theorem evaluateCondition_of_extendedBy (h : context.ExtendedBy context') :
    ∀ condition : Condition, condition.notFree = true →
      evaluateCondition dateParse context condition = true →
      evaluateCondition dateParse context' condition = true
  | .always, _, _ => rfl
  | .comparison comparison, _, htrue =>
    evaluateComparison_of_extendedBy dateParse h comparison htrue
  | .and operands, hfree, htrue => evaluateEvery_of_extendedBy h operands hfree htrue
  | .or operands, hfree, htrue => evaluateSome_of_extendedBy h operands hfree htrue
  | .not _, hfree, _ => nomatch hfree

theorem evaluateEvery_of_extendedBy (h : context.ExtendedBy context') :
    ∀ operands : List Condition, Condition.notFreeOperands operands = true →
      evaluateEvery dateParse context operands = true →
      evaluateEvery dateParse context' operands = true
  | [], _, _ => rfl
  | operand :: operands, hfree, htrue => by
    rw [Condition.notFreeOperands, Bool.and_eq_true] at hfree
    rw [evaluateEvery, Bool.and_eq_true] at htrue ⊢
    exact ⟨evaluateCondition_of_extendedBy h operand hfree.1 htrue.1,
      evaluateEvery_of_extendedBy h operands hfree.2 htrue.2⟩

theorem evaluateSome_of_extendedBy (h : context.ExtendedBy context') :
    ∀ operands : List Condition, Condition.notFreeOperands operands = true →
      evaluateSome dateParse context operands = true →
      evaluateSome dateParse context' operands = true
  | [], _, htrue => nomatch htrue
  | operand :: operands, hfree, htrue => by
    rw [Condition.notFreeOperands, Bool.and_eq_true] at hfree
    rw [evaluateSome, Bool.or_eq_true] at htrue ⊢
    rcases htrue with hfirst | hrest
    · exact .inl (evaluateCondition_of_extendedBy h operand hfree.1 hfirst)
    · exact .inr (evaluateSome_of_extendedBy h operands hfree.2 hrest)

end

end Evaluation

/-- A bag without attributes. -/
def emptyBag : AttributeBag := .ofKeys [] fun _ => .boolean true

/-- The bag of an administrator. -/
def administratorBag : AttributeBag := .ofKeys ["role"] fun _ => .string "admin"

/-- A bag with the owner of a resource. -/
def ownedBag : AttributeBag := .ofKeys ["ownerId"] fun _ => .string "ada"

/-- Whether somebody is an administrator, or a resource is owned by someone else than one user. -/
def administratorOrForeign : Condition :=
  .or [.comparison ⟨"subject.role", .eq, .string "admin"⟩,
    .comparison ⟨"resource.ownerId", .neq, .string "bob"⟩]

end Verixa.Authorization
