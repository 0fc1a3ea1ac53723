import Mathlib.Data.List.TakeDrop
import Verixa.Collections.OrderedMap
import Verixa.SharedKernel.Number

/-!
# Conditions and their evaluation

A rule of a policy carries a condition: a tree of comparisons of attributes with literals, combined
by conjunction, disjunction and negation.  `evaluateCondition` evaluates it against the attributes
of a request, and the combining algorithms turn the outcomes of several rules into one decision.

Attributes stand in four bags and are addressed by paths such as `resource.ownerId`.  A bag is a
plain object, so that reading a property it does not have may still find one of `Object.prototype`.
`dateParse` stands for the built-in `Date.parse`, with `none` for a text that is no date.
-/

namespace Verixa.Authorization

/-! ## Attributes -/

/-- The value of an attribute; a date is its time, if it is a valid one. -/
inductive AttributeValue where
  | string (value : String)
  | number (value : Number)
  | boolean (value : Bool)
  | date (time : Option ℤ)
  | array (items : List AttributeValue)
  | record (fields : List (String × AttributeValue))

/-- The property that no assignment creates on a plain object. -/
def prototypeKey : String := "__proto__"

/-- The properties that every plain object inherits. -/
def inheritedKeys : List String :=
  [prototypeKey, "constructor", "hasOwnProperty", "isPrototypeOf", "propertyIsEnumerable",
    "toLocaleString", "toString", "valueOf", "__defineGetter__", "__defineSetter__",
    "__lookupGetter__", "__lookupSetter__"]

/-- A bag of attributes. -/
structure AttributeBag where
  own : OrderedMap String AttributeValue
  /-- A copied bag never owns that property. -/
  prototype_free : own.get? prototypeKey = none

/-- A bag with given keys, every value being a function of its key. -/
def AttributeBag.ofKeys (keys : List String) (value : String → AttributeValue) : AttributeBag where
  own := OrderedMap.ofKeys (keys.filter fun key => decide (key ≠ prototypeKey)) value
  prototype_free := by simp [OrderedMap.get?_ofKeys]

/-- What reading a property gives. -/
inductive Resolved where
  | value (value : AttributeValue)
  /-- A function of `Object.prototype`, or that object itself. -/
  | inherited (key : String)

/-- `bag[key]`. -/
def AttributeBag.property (bag : AttributeBag) (key : String) : Option Resolved :=
  match bag.own.get? key with
  | some value => some (.value value)
  | none => if key ∈ inheritedKeys then some (.inherited key) else none

/-- A bag with given keys has them all, except that of the prototype. -/
theorem AttributeBag.property_ofKeys {keys : List String} {value : String → AttributeValue}
    {key : String} (hkey : key ∈ keys) (hproto : key ≠ prototypeKey) :
    (AttributeBag.ofKeys keys value).property key = some (.value (value key)) := by
  have hown : (AttributeBag.ofKeys keys value).own.get? key = some (value key) := by
    rw [AttributeBag.ofKeys, OrderedMap.get?_ofKeys, if_pos]
    exact List.mem_filter.mpr ⟨hkey, by simpa using hproto⟩
  rw [AttributeBag.property, hown]

/-- The property of the prototype is inherited. -/
theorem AttributeBag.property_prototypeKey (bag : AttributeBag) :
    bag.property prototypeKey = some (.inherited prototypeKey) := by
  rw [AttributeBag.property, bag.prototype_free]
  rfl

/-- The attributes of a request. -/
structure AttributeContext where
  subject : AttributeBag
  resource : AttributeBag
  action : AttributeBag
  environment : AttributeBag

/-- The names of the bags. -/
inductive AttributeBagName where
  | subject
  | resource
  | action
  | environment
  deriving DecidableEq

/-- The text of a name. -/
def AttributeBagName.text : AttributeBagName → String
  | .subject => "subject"
  | .resource => "resource"
  | .action => "action"
  | .environment => "environment"

/-- The name with a given text. -/
def AttributeBagName.ofText? (text : String) : Option AttributeBagName :=
  [.subject, .resource, .action, .environment].find? fun name => name.text = text

/-- The bag of a given name. -/
def AttributeContext.bag (context : AttributeContext) : AttributeBagName → AttributeBag
  | .subject => context.subject
  | .resource => context.resource
  | .action => context.action
  | .environment => context.environment

/-- The bag and the property that a path addresses: what stands before and behind its first dot. -/
def addressOf (path : String) : Option (AttributeBagName × String) :=
  match path.toList.span (· ≠ '.') with
  | (_, []) => none
  | (category, _ :: key) =>
    (AttributeBagName.ofText? (String.ofList category)).map fun name => (name, String.ofList key)

theorem AttributeBagName.text_of_ofText? {text : String} {name : AttributeBagName}
    (h : AttributeBagName.ofText? text = some name) : name.text = text := by
  simpa using List.find?_some h

/-- A path is what it addresses. -/
theorem eq_of_addressOf {path : String} {name : AttributeBagName} {key : String}
    (h : addressOf path = some (name, key)) : path = name.text ++ "." ++ key := by
  have happend := List.takeWhile_append_dropWhile (p := (· ≠ '.')) (l := path.toList)
  have hhead := List.head?_dropWhile_not (· ≠ '.') path.toList
  rw [addressOf, List.span_eq_takeWhile_dropWhile] at h
  revert h happend hhead
  generalize path.toList.takeWhile _ = category
  generalize path.toList.dropWhile _ = rest
  intro h happend hhead
  cases rest with
  | nil => simp at h
  | cons c rest =>
    obtain rfl : c = '.' := by simpa using hhead
    simp only [Option.map_eq_some_iff, Prod.mk.injEq] at h
    obtain ⟨name', hname, rfl, rfl⟩ := h
    rw [AttributeBagName.text_of_ofText? hname]
    apply String.toList_injective
    rw [← happend]
    simp

/-- Reads the attribute at a path. -/
def AttributeContext.resolve (context : AttributeContext) (path : String) : Option Resolved :=
  match addressOf path with
  | none => none
  | some (name, key) => (context.bag name).property key

/-! ## Conditions -/

/-- The operators of a comparison. -/
inductive ComparisonOperator where
  | eq
  | neq
  | lt
  | lte
  | gt
  | gte
  | in
  | contains
  deriving DecidableEq

/-- An item of a literal array. -/
inductive LiteralItem where
  | string (value : String)
  | number (value : Number)
  deriving DecidableEq

/-- The right-hand side of a comparison.  An array has an identity, by which `===` compares it. -/
inductive ComparisonLiteral where
  | string (value : String)
  | number (value : Number)
  | boolean (value : Bool)
  | array (identity : ℕ) (items : List LiteralItem)
  deriving DecidableEq

/-- A comparison of an attribute with a literal. -/
structure ComparisonCondition where
  «attribute» : String
  operator : ComparisonOperator
  value : ComparisonLiteral
  deriving DecidableEq

/-- A condition. -/
inductive Condition where
  | always
  | comparison (comparison : ComparisonCondition)
  | and (operands : List Condition)
  | or (operands : List Condition)
  | not (operand : Condition)

/-! ## Evaluation -/

/-- The comparison of `eq`: arrays equal nothing, a date equals the text of its time, and other
values are compared without conversion. -/
def equalsLiteral (dateParse : String → Option ℤ) : Resolved → ComparisonLiteral → Bool
  | _, .array _ _ => false
  | .value (.date time), .string text =>
    match time, dateParse text with
    | some t, some t' => decide (t = t')
    | _, _ => false
  | .value (.string a), .string b => decide (a = b)
  | .value (.number a), .number b => a.strictEq b
  | .value (.boolean a), .boolean b => decide (a = b)
  | _, _ => false

/-- The number by which an attribute is ordered, if it is a number or a date. -/
def orderableValueOf : Resolved → Option Number
  | .value (.number n) => some n
  | .value (.date (some time)) => some (.finite time)
  | .value (.date none) => some .nan
  | _ => none

/-- A comparison by order. -/
def compareOrder (order : Number → Number → Bool) (actual : Resolved)
    (literal : ComparisonLiteral) : Bool :=
  match orderableValueOf actual, literal with
  | some a, .number b => order a b
  | _, _ => false

/-- `literal.includes(actual)`. -/
def literalIncludes (items : List LiteralItem) : Resolved → Bool
  | .value (.string a) => decide (.string a ∈ items)
  | .value (.number a) => decide (.number a ∈ items)
  | _ => false

/-- Whether an item of an attribute is the literal, by the comparison of `includes`. -/
def isItem : AttributeValue → ComparisonLiteral → Bool
  | .string a, .string b => decide (a = b)
  | .number a, .number b => a.sameValueZero b
  | .boolean a, .boolean b => decide (a = b)
  | _, _ => false

/-- The outcome of a comparison for an attribute that is present. -/
def compareResolved (dateParse : String → Option ℤ) (actual : Resolved)
    (operator : ComparisonOperator) (literal : ComparisonLiteral) : Bool :=
  match operator with
  | .eq => equalsLiteral dateParse actual literal
  | .neq => !equalsLiteral dateParse actual literal
  | .lt => compareOrder Number.lt actual literal
  | .lte => compareOrder Number.le actual literal
  | .gt => compareOrder (fun a b => b.lt a) actual literal
  | .gte => compareOrder (fun a b => b.le a) actual literal
  | .in =>
    match literal with
    | .array _ items => literalIncludes items actual
    | _ => false
  | .contains =>
    match actual, literal with
    | _, .array _ _ => false
    | .value (.array items), literal => items.any fun item => isItem item literal
    | _, _ => false

/-- Evaluates a comparison; a missing attribute fails it, whatever the operator. -/
def evaluateComparison (dateParse : String → Option ℤ) (condition : ComparisonCondition)
    (context : AttributeContext) : Bool :=
  match context.resolve condition.attribute with
  | none => false
  | some actual => compareResolved dateParse actual condition.operator condition.value

mutual

/-- Evaluates a condition. -/
def evaluateCondition (dateParse : String → Option ℤ) (context : AttributeContext) :
    Condition → Bool
  | .always => true
  | .comparison comparison => evaluateComparison dateParse comparison context
  | .and operands => evaluateEvery dateParse context operands
  | .or operands => evaluateSome dateParse context operands
  | .not operand => !evaluateCondition dateParse context operand

/-- `operands.every(…)`. -/
def evaluateEvery (dateParse : String → Option ℤ) (context : AttributeContext) :
    List Condition → Bool
  | [] => true
  | operand :: operands =>
    evaluateCondition dateParse context operand && evaluateEvery dateParse context operands

/-- `operands.some(…)`. -/
def evaluateSome (dateParse : String → Option ℤ) (context : AttributeContext) :
    List Condition → Bool
  | [] => false
  | operand :: operands =>
    evaluateCondition dateParse context operand || evaluateSome dateParse context operands

end

/-! ## Rules and their combination -/

/-- What a matching rule contributes. -/
inductive Effect where
  | permit
  | deny
  deriving DecidableEq

/-- The text of an effect. -/
def Effect.text : Effect → String
  | .permit => "PERMIT"
  | .deny => "DENY"

/-- A rule of a policy set: its id, its effect and its condition. -/
structure Rule where
  id : String
  effect : Effect
  condition : Condition

/-- An ordered set of rules. -/
structure PolicySet where
  id : String
  rules : List Rule

/-- Whether the condition of a rule holds. -/
def evaluateRule (dateParse : String → Option ℤ) (rule : Rule) (context : AttributeContext) :
    Bool :=
  evaluateCondition dateParse context rule.condition

/-- The outcome of one rule. -/
inductive RuleOutcome where
  | effect (effect : Effect)
  | notApplicable
  deriving DecidableEq

/-- The outcomes of rules, in their order. -/
def deriveRuleOutcomes (dateParse : String → Option ℤ) (rules : List Rule)
    (context : AttributeContext) : List RuleOutcome :=
  rules.map fun rule =>
    if evaluateRule dateParse rule context then .effect rule.effect else .notApplicable

/-- Any `DENY` wins. -/
def denyOverrides (outcomes : List RuleOutcome) : RuleOutcome :=
  if .effect .deny ∈ outcomes then .effect .deny
  else if .effect .permit ∈ outcomes then .effect .permit
  else .notApplicable

/-- Any `PERMIT` wins. -/
def permitOverrides (outcomes : List RuleOutcome) : RuleOutcome :=
  if .effect .permit ∈ outcomes then .effect .permit
  else if .effect .deny ∈ outcomes then .effect .deny
  else .notApplicable

/-- The first applicable rule wins. -/
def firstApplicable (outcomes : List RuleOutcome) : RuleOutcome :=
  (outcomes.find? fun outcome => outcome ≠ .notApplicable).getD .notApplicable

end Verixa.Authorization
