import Verixa.Authorization.Condition
import Verixa.Encoding.Text
import Verixa.SharedKernel.Record

/-!
# Policies

A policy is a named and versioned list of rules for the actions on one type of resource.  Policies
do not change: publishing makes a new one, with the same id and the next version, which has the name
and the target of the one before.
-/

namespace Verixa.Authorization

open Encoding

/-- Which resources and actions a policy is about. -/
structure PolicyTarget where
  resourceType : String
  actions : List String
  deriving DecidableEq

inductive PolicyStatus where
  | draft
  | published
  | archived
  deriving DecidableEq

namespace Policy

/-- A rule of a policy: its effect and its condition. -/
structure Rule where
  effect : Effect
  condition : Condition
  description : Option String := none

end Policy

structure Policy where
  id : String
  name : String
  target : PolicyTarget
  rules : List Policy.Rule
  version : ℕ
  createdAt : ℤ
  status : PolicyStatus
  dslSource : Option String

namespace Policy

/-- The policy applies to the action on resources of the type. -/
def targets (policy : Policy) (resourceType action : String) : Bool :=
  decide (policy.target.resourceType = resourceType) && policy.target.actions.contains action

/-- What is wrong with the parts of a new policy. -/
def fieldErrors (name : String) (target : PolicyTarget) (rules : List Rule) :
    List (String × List String) :=
  (if trim name = "" then [("name", ["required"])] else []) ++
  (if rules = [] then [("rules", ["at_least_one_rule_required"])] else []) ++
  (if target.actions = [] then [("target", ["at_least_one_action_required"])] else [])

/-- The first version of a new policy; `id` is what `createId` returns. -/
def create (id name : String) (target : PolicyTarget) (rules : List Rule)
    (status : Option PolicyStatus) (dslSource : Option String) (now : ℤ) :
    Except ValidationError Policy :=
  if fieldErrors name target rules ≠ [] then
    .error ⟨"Policy is invalid.", fieldErrors name target rules⟩
  else .ok
    { id := id, name := name, target := target, rules := rules, version := 1, createdAt := now,
      status := status.getD .published, dslSource := dslSource }

/-- The next version of a policy, with other rules. -/
def publishNewVersion (policy : Policy) (rules : List Rule) (dslSource : Option String) (now : ℤ) :
    Except ValidationError Policy :=
  if rules = [] then .error ⟨"Policy is invalid.", [("rules", ["at_least_one_rule_required"])]⟩
  else .ok
    { policy with
      rules := rules, version := policy.version + 1, createdAt := now, status := .published,
      dslSource := dslSource.or policy.dslSource }

/-- A new policy has the id it was made with. -/
theorem create_ok {id name : String} {target : PolicyTarget} {rules : List Rule}
    {status : Option PolicyStatus} {dslSource : Option String} {now : ℤ} {policy : Policy}
    (h : create id name target rules status dslSource now = .ok policy) : policy.id = id := by
  unfold create at h
  split at h <;> cases h
  rfl

/-- The next version is one of the same policy, with the same target. -/
theorem publishNewVersion_ok {policy next : Policy} {rules : List Rule} {dslSource : Option String}
    {now : ℤ} (h : policy.publishNewVersion rules dslSource now = .ok next) :
    next.id = policy.id ∧ next.target = policy.target := by
  unfold publishNewVersion at h
  split at h <;> cases h
  exact ⟨rfl, rfl⟩

end Policy

/-! ## Conditions as data -/

namespace ComparisonLiteral

/-- The literal as data: which array it is does not matter. -/
def asData : ComparisonLiteral → ComparisonLiteral
  | .array _ items => .array 0 items
  | literal => literal

end ComparisonLiteral

namespace Condition

mutual

/-- The condition as data. -/
def asData : Condition → Condition
  | .always => .always
  | .comparison leaf => .comparison { leaf with value := leaf.value.asData }
  | .and operands => .and (asDataOperands operands)
  | .or operands => .or (asDataOperands operands)
  | .not operand => .not operand.asData

/-- The operands as data. -/
def asDataOperands : List Condition → List Condition
  | [] => []
  | operand :: operands => operand.asData :: asDataOperands operands

end

end Condition

/-- The policy as data. -/
def Policy.asData (policy : Policy) : Policy :=
  { policy with
    rules := policy.rules.map fun rule => { rule with condition := rule.condition.asData } }

@[simp] theorem Policy.asData_id (policy : Policy) : policy.asData.id = policy.id := rfl

/-! ## Literals that JSON has a text for -/

/-- The item has a text in JSON. -/
def LiteralItem.isSerializable : LiteralItem → Bool
  | .string _ => true
  | .number value => value.isFinite

/-- The literal is restricted to JSON-serializable primitives and arrays of them. -/
def ComparisonLiteral.isSerializable : ComparisonLiteral → Bool
  | .number value => value.isFinite
  | .array _ items => items.all LiteralItem.isSerializable
  | _ => true

namespace Condition

mutual

/-- All literals of the condition have a text in JSON. -/
def isSerializable : Condition → Bool
  | .always => true
  | .comparison leaf => leaf.value.isSerializable
  | .and operands => isSerializableOperands operands
  | .or operands => isSerializableOperands operands
  | .not operand => operand.isSerializable

/-- All literals of the operands have a text in JSON. -/
def isSerializableOperands : List Condition → Bool
  | [] => true
  | operand :: operands => operand.isSerializable && isSerializableOperands operands

end

end Condition

/-- All literals in the rules of the policy have a text in JSON. -/
def Policy.isSerializable (policy : Policy) : Bool :=
  policy.rules.all fun rule => rule.condition.isSerializable

end Verixa.Authorization
