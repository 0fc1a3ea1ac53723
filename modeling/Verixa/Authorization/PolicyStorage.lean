import Verixa.Authorization.PolicyMapper

/-!
# Policies survive storage

The conditions of a policy are made by the constructors of `Condition`, which refuse an empty
conjunction or disjunction.  A policy made and published with such conditions is read back from its
row as the same policy: `Condition.equals` tells no difference between its conditions and those of
the row (`policy_survives_storage`).
-/

namespace Verixa.Authorization

open Encoding

/-! ## The constructors -/

namespace Condition

/-- `Condition.and(operands)`. -/
def andOf (operands : List Condition) : Except ThrownError Condition :=
  if operands.length = 0 then
    .error { message := "Condition.and() requires at least one operand." }
  else .ok (.and operands)

/-- `Condition.or(operands)`. -/
def orOf (operands : List Condition) : Except ThrownError Condition :=
  if operands.length = 0 then
    .error { message := "Condition.or() requires at least one operand." }
  else .ok (.or operands)

/-- The conditions that the constructors build. -/
inductive Constructed : Condition → Prop
  | always : Constructed .always
  | comparison (leaf : ComparisonCondition) : Constructed (.comparison leaf)
  | and {operands : List Condition} {condition : Condition}
      (all : ∀ operand ∈ operands, Constructed operand) (built : andOf operands = .ok condition) :
      Constructed condition
  | or {operands : List Condition} {condition : Condition}
      (all : ∀ operand ∈ operands, Constructed operand) (built : orOf operands = .ok condition) :
      Constructed condition
  | not {operand : Condition} (built : Constructed operand) : Constructed (.not operand)

end Condition

/-! ## Equality of conditions -/

/-- `item === other`, for the items of two literal arrays. -/
def LiteralItem.strictEq : LiteralItem → LiteralItem → Bool
  | .string a, .string b => decide (a = b)
  | .number a, .number b => a.strictEq b
  | _, _ => false

/-- Arrays of the same length with the same items. -/
def LiteralItem.sameItems : List LiteralItem → List LiteralItem → Bool
  | [], [] => true
  | item :: items, other :: others => item.strictEq other && sameItems items others
  | _, _ => false

/-- Whether two comparisons have the same right-hand side, as `Condition.equals` sees it. -/
def ComparisonLiteral.sameValue : ComparisonLiteral → ComparisonLiteral → Bool
  | .array _ items, .array _ others => LiteralItem.sameItems items others
  | .string a, .string b => decide (a = b)
  | .number a, .number b => a.strictEq b
  | .boolean a, .boolean b => decide (a = b)
  | _, _ => false

namespace Condition

mutual

/-- `Condition.equals(a, b)`. -/
def equals : Condition → Condition → Bool
  | .always, .always => true
  | .comparison a, .comparison b =>
    if a.attribute ≠ b.attribute ∨ a.operator ≠ b.operator then false
    else a.value.sameValue b.value
  | .not a, .not b => a.equals b
  | .and operands, .and otherOperands => equalsOperands operands otherOperands
  | .or operands, .or otherOperands => equalsOperands operands otherOperands
  | _, _ => false

/-- As many operands on either side, and each equal to the one in its place. -/
def equalsOperands : List Condition → List Condition → Bool
  | [], [] => true
  | operand :: operands, otherOperand :: otherOperands =>
    operand.equals otherOperand && equalsOperands operands otherOperands
  | _, _ => false

end

end Condition

theorem LiteralItem.sameItems_self : ∀ {items : List LiteralItem},
    items.all LiteralItem.isSerializable = true → sameItems items items = true
  | [], _ => rfl
  | item :: items, h => by
    rw [List.all_cons, Bool.and_eq_true] at h
    rw [sameItems, sameItems_self h.2, Bool.and_true]
    match item with
    | .string value => exact decide_eq_true rfl
    | .number value => exact Number.strictEq_self h.1

/-- A literal without numbers that are not finite equals itself as data. -/
theorem ComparisonLiteral.sameValue_asData {literal : ComparisonLiteral}
    (h : literal.isSerializable = true) : literal.sameValue literal.asData = true := by
  match literal with
  | .string value | .boolean value => exact decide_eq_true rfl
  | .number value => exact Number.strictEq_self h
  | .array identity items => exact LiteralItem.sameItems_self h

namespace Condition

mutual

/-- So does a condition. -/
theorem equals_asData : ∀ {condition : Condition}, condition.isSerializable = true →
    condition.equals condition.asData = true
  | .always, _ => rfl
  | .comparison leaf, h => by
    have hvalue : leaf.value.sameValue leaf.value.asData = true :=
      ComparisonLiteral.sameValue_asData h
    rw [asData, equals, if_neg (by simp)]
    exact hvalue
  | .and operands, h => @equalsOperands_asData operands h
  | .or operands, h => @equalsOperands_asData operands h
  | .not operand, h => @equals_asData operand h

theorem equalsOperands_asData : ∀ {operands : List Condition},
    isSerializableOperands operands = true →
    equalsOperands operands (asDataOperands operands) = true
  | [], _ => rfl
  | operand :: operands, h => by
    rw [isSerializableOperands, Bool.and_eq_true] at h
    rw [asDataOperands, equalsOperands, equals_asData h.1, equalsOperands_asData h.2]
    rfl

end

end Condition

/-! ## Policies that are made -/

namespace Policy

/-- The rules have conditions of the constructors, with finite numbers. -/
def RulesConstructed (rules : List Rule) : Prop :=
  ∀ rule ∈ rules, rule.condition.Constructed ∧ rule.condition.isSerializable = true

/-- The policies that are created, and the versions that are published of them. -/
inductive Made : Policy → Prop
  | create {id name : String} {target : PolicyTarget} {rules : List Rule}
      {status : Option PolicyStatus} {dslSource : Option String} {now : ℤ} {policy : Policy}
      (constructed : RulesConstructed rules)
      (created : create id name target rules status dslSource now = .ok policy) : Made policy
  | publishNewVersion {policy next : Policy} {rules : List Rule} {dslSource : Option String}
      {now : ℤ} (made : Made policy) (constructed : RulesConstructed rules)
      (published : policy.publishNewVersion rules dslSource now = .ok next) : Made next

/-- Its rules are the ones it was made or published with. -/
theorem Made.constructed {policy : Policy} (h : Made policy) : RulesConstructed policy.rules := by
  induction h with
  | create constructed created =>
    unfold Policy.create at created
    split at created <;> cases created
    exact constructed
  | publishNewVersion made constructed published ih =>
    unfold Policy.publishNewVersion at published
    split at published <;> cases published
    exact constructed

theorem Made.isSerializable {policy : Policy} (h : Made policy) :
    policy.isSerializable = true := by
  rw [Policy.isSerializable, List.all_eq_true]
  intro rule hrule
  exact (h.constructed rule hrule).2

/-- The rules have the same effect and description, and equal conditions. -/
def SameRule (a b : Rule) : Prop :=
  a.effect = b.effect ∧ a.description = b.description ∧ a.condition.equals b.condition = true

theorem sameRules_asData : ∀ {rules : List Rule},
    (∀ rule ∈ rules, rule.condition.isSerializable = true) →
    List.Forall₂ SameRule rules
      (rules.map fun rule => { rule with condition := rule.condition.asData })
  | [], _ => .nil
  | rule :: rules, h => by
    have hrule := h rule List.mem_cons_self
    refine .cons ⟨rfl, rfl, Condition.equals_asData hrule⟩ (sameRules_asData ?_)
    intro other hother
    exact h other (List.mem_cons_of_mem rule hother)

end Policy

/-- A policy is read from its row with all its fields, and with its rules in their order. -/
theorem policy_survives_storage (policy : Policy) (hmade : policy.Made) :
    ∃ loaded, PolicyMapper.toDomain (PolicyMapper.toRow policy) = .ok loaded ∧
      loaded.id = policy.id ∧ loaded.version = policy.version ∧ loaded.name = policy.name ∧
      loaded.target = policy.target ∧ loaded.status = policy.status ∧
      loaded.dslSource = policy.dslSource ∧ loaded.createdAt = policy.createdAt ∧
      List.Forall₂ Policy.SameRule policy.rules loaded.rules := by
  refine ⟨policy.asData, PolicyMapper.toDomain_toRow hmade.isSerializable,
    rfl, rfl, rfl, rfl, rfl, rfl, rfl, ?_⟩
  apply Policy.sameRules_asData
  intro rule hrule
  exact (hmade.constructed rule hrule).2

/-- A policy with a nested condition. -/
def storedPolicy : Policy where
  id := "p"
  name := "Owners"
  target := ⟨"document", ["read"]⟩
  rules := [⟨.permit, .and [.not (.comparison ⟨"resource.locked", .eq, .boolean true⟩),
    .comparison ⟨"resource.tags", .in, .array 7 [.string "a", .number (.finite 1)]⟩], none⟩]
  version := 1
  createdAt := 0
  status := .published
  dslSource := none

theorem policy_survives_storage_sample :
    ∃ loaded, PolicyMapper.toDomain (PolicyMapper.toRow storedPolicy) = .ok loaded ∧
      List.Forall₂ Policy.SameRule storedPolicy.rules loaded.rules := by
  have hname : trim "Owners" ≠ "" := by decide +kernel
  have hcreated : Policy.create "p" "Owners" ⟨"document", ["read"]⟩ storedPolicy.rules none none 0 =
      .ok storedPolicy := by
    rw [Policy.create, Policy.fieldErrors, if_neg hname]
    rfl
  have hmade : storedPolicy.Made := by
    refine .create ?_ hcreated
    intro rule hrule
    obtain rfl := List.mem_singleton.mp hrule
    refine ⟨?_, rfl⟩
    refine @Condition.Constructed.and [_, _] _ ?_ rfl
    intro operand hoperand
    rcases List.mem_pair.mp hoperand with rfl | rfl
    · exact .not (.comparison _)
    · exact .comparison _
  obtain ⟨loaded, hloaded, -, -, -, -, -, -, -, hrules⟩ :=
    policy_survives_storage storedPolicy hmade
  exact ⟨loaded, hloaded, hrules⟩

end Verixa.Authorization
