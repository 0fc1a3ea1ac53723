import Verixa.Authorization.Policy
import Verixa.Encoding.PlainValue
import Verixa.SharedKernel.Errors

/-!
# Policies as rows

`toRow` writes the rules of a policy as JSON, and `toDomain` reads them back; a row with rules that
are not well formed makes it throw.  A policy survives as data, provided that its literals have a
text in JSON; otherwise its row cannot be read (`toDomain_toRow`).
-/

namespace Verixa.Authorization

/-- A row of the table `policies`. -/
structure PolicyRow where
  id : String
  version : ℕ
  name : String
  resourceType : String
  actions : List String
  rules : PlainValue
  dslSource : Option String
  status : PolicyStatus
  createdAt : ℤ

namespace PolicyMapper

/-! ## Writing -/

/-- The text of an operator. -/
def operatorText : ComparisonOperator → String
  | .eq => "eq"
  | .neq => "neq"
  | .lt => "lt"
  | .lte => "lte"
  | .gt => "gt"
  | .gte => "gte"
  | .in => "in"
  | .contains => "contains"

def itemJson : LiteralItem → PlainValue
  | .string value => .string value
  | .number value => .number value

def literalJson : ComparisonLiteral → PlainValue
  | .string value => .string value
  | .number value => .number value
  | .boolean value => .boolean value
  | .array _ items => .array (items.map itemJson)

mutual

/-- A condition is plain data. -/
def conditionJson : Condition → PlainValue
  | .always => .object [("kind", .string "always")]
  | .comparison comparison =>
    .object [("kind", .string "comparison"), ("attribute", .string comparison.attribute),
      ("operator", .string (operatorText comparison.operator)),
      ("value", literalJson comparison.value)]
  | .and operands => .object [("kind", .string "and"), ("operands", .array (operandsJson operands))]
  | .or operands => .object [("kind", .string "or"), ("operands", .array (operandsJson operands))]
  | .not operand => .object [("kind", .string "not"), ("operand", conditionJson operand)]

def operandsJson : List Condition → List PlainValue
  | [] => []
  | operand :: operands => conditionJson operand :: operandsJson operands

end

/-- A rule; a description that is missing is no field. -/
def ruleJson (rule : Policy.Rule) : PlainValue :=
  .object ([("effect", .string rule.effect.text), ("condition", conditionJson rule.condition)] ++
    rule.description.toList.map fun description => ("description", .string description))

def toRow (policy : Policy) : PolicyRow where
  id := policy.id
  version := policy.version
  name := policy.name
  resourceType := policy.target.resourceType
  actions := policy.target.actions
  rules := (PlainValue.array (policy.rules.map ruleJson)).reparsed
  dslSource := policy.dslSource
  status := policy.status
  createdAt := policy.createdAt

/-! ## Reading -/

/-- The operator with a given text; rows hold texts here and nothing else. -/
def operatorOf (text : String) : Option ComparisonOperator :=
  [.eq, .neq, .lt, .lte, .gt, .gte, .in, .contains].find? fun operator =>
    operatorText operator = text

def itemOf : PlainValue → Option LiteralItem
  | .string value => some (.string value)
  | .number value => some (.number value)
  | _ => none

/-- A literal; an array that is read is a new one. -/
def literalOf : PlainValue → Option ComparisonLiteral
  | .string value => some (.string value)
  | .number value => some (.number value)
  | .boolean value => some (.boolean value)
  | .array items => (items.mapM itemOf).map (.array 0)
  | _ => none

def comparisonOf (fields : List (String × PlainValue)) : Option ComparisonCondition :=
  match PlainValue.property fields "attribute", PlainValue.property fields "operator",
    PlainValue.property fields "value" with
  | some (.string path), some (.string operator), some value => do
    let operator ← operatorOf operator
    let value ← literalOf value
    return ⟨path, operator, value⟩
  | _, _, _ => none

mutual

/-- The condition that a value is, if `isCondition` holds of it. -/
def conditionOf : PlainValue → Option Condition
  | .object fields =>
    match PlainValue.property fields "kind" with
    | some (.string "always") => some .always
    | some (.string "comparison") => (comparisonOf fields).map .comparison
    | some (.string "and") => (operandsIn fields).map .and
    | some (.string "or") => (operandsIn fields).map .or
    | some (.string "not") => (operandIn fields).map .not
    | _ => none
  | _ => none

/-- `isCondition(value["operand"])`. -/
def operandIn : List (String × PlainValue) → Option Condition
  | [] => none
  | (key, value) :: fields => if key = "operand" then conditionOf value else operandIn fields

/-- `value["operands"].every(isCondition)`. -/
def operandsIn : List (String × PlainValue) → Option (List Condition)
  | [] => none
  | (key, value) :: fields => if key = "operands" then operandsOf value else operandsIn fields

/-- The operands, if they are an array. -/
def operandsOf : PlainValue → Option (List Condition)
  | .array items => everyOf items
  | _ => none

/-- `items.every(isCondition)`. -/
def everyOf : List PlainValue → Option (List Condition)
  | [] => some []
  | item :: items =>
    match conditionOf item, everyOf items with
    | some operand, some operands => some (operand :: operands)
    | _, _ => none

end

/-- The effect with a given text. -/
def effectOf (text : String) : Option Effect :=
  [.permit, .deny].find? fun effect => effect.text = text

/-- The rule that a value is, if it is one. -/
def ruleOf : PlainValue → Option Policy.Rule
  | .object fields =>
    match PlainValue.property fields "effect",
      (PlainValue.property fields "condition").bind conditionOf,
      PlainValue.property fields "description" with
    | some (.string effect), some condition, none =>
      (effectOf effect).map fun effect => { effect := effect, condition := condition }
    | some (.string effect), some condition, some (.string description) =>
      (effectOf effect).map fun effect =>
        { effect := effect, condition := condition, description := some description }
    | _, _, _ => none
  | _ => none

/-- The rules from an index on. -/
def rulesFrom (policyId : String) : ℕ → List PlainValue → Except ThrownError (List Policy.Rule)
  | _, [] => .ok []
  | index, rule :: rules =>
    match ruleOf rule with
    | none => .error { message :=
        "policies.id=" ++ policyId ++ " has an invalid rule at index " ++ Nat.repr index ++ "." }
    | some rule => (rulesFrom policyId (index + 1) rules).map (rule :: ·)

def rulesFromJson (policyId : String) : PlainValue → Except ThrownError (List Policy.Rule)
  | .array rules => rulesFrom policyId 0 rules
  | _ => .error { message :=
      "policies.id=" ++ policyId ++ " has a rules value that is not an array." }

/-- Reads a policy; the actions of a row are texts. -/
def toDomain (row : PolicyRow) : Except ThrownError Policy := do
  let rules ← rulesFromJson row.id row.rules
  return { id := row.id, name := row.name, target := ⟨row.resourceType, row.actions⟩,
           rules := rules, version := row.version, createdAt := row.createdAt,
           status := row.status, dslSource := row.dslSource }

/-! ## Reading what was written -/

theorem operatorOf_operatorText (operator : ComparisonOperator) :
    operatorOf (operatorText operator) = some operator := by
  cases operator <;> decide

theorem effectOf_text (effect : Effect) : effectOf effect.text = some effect := by
  cases effect <;> decide

theorem itemOf_reparsed (item : LiteralItem) :
    itemOf (itemJson item).reparsed = if item.isSerializable then some item else none := by
  match item with
  | .string value => rfl
  | .number (.finite value) => rfl
  | .number .nan | .number .infinity | .number .negativeInfinity => rfl

theorem mapM_itemOf_reparsed (items : List LiteralItem) :
    (items.map fun item => (itemJson item).reparsed).mapM itemOf =
      if items.all LiteralItem.isSerializable then some items else none := by
  induction items with
  | nil => rfl
  | cons item items ih =>
    rw [List.map_cons, List.mapM_cons, ih, itemOf_reparsed, List.all_cons]
    cases item.isSerializable <;> cases items.all LiteralItem.isSerializable <;> rfl

theorem literalOf_reparsed (literal : ComparisonLiteral) :
    literalOf (literalJson literal).reparsed =
      if literal.isSerializable then some literal.asData else none := by
  match literal with
  | .string value | .boolean value => rfl
  | .number (.finite value) => rfl
  | .number .nan | .number .infinity | .number .negativeInfinity => rfl
  | .array identity items =>
    rw [literalJson, PlainValue.reparsed, literalOf, PlainValue.reparsedItems_eq_map, List.map_map,
      Function.comp_def, mapM_itemOf_reparsed, ComparisonLiteral.isSerializable]
    cases items.all LiteralItem.isSerializable <;> rfl

theorem comparisonOf_reparsed (comparison : ComparisonCondition) (kind : PlainValue) :
    comparisonOf [("kind", kind), ("attribute", .string comparison.attribute),
        ("operator", .string (operatorText comparison.operator)),
        ("value", (literalJson comparison.value).reparsed)] =
      if comparison.value.isSerializable then
        some { comparison with value := comparison.value.asData } else none := by
  have hvalue := literalOf_reparsed comparison.value
  simp only [comparisonOf, PlainValue.property, List.find?_cons, String.reduceEq, decide_false,
    decide_true, Option.map_some, operatorOf_operatorText, hvalue]
  cases comparison.value.isSerializable <;> rfl

mutual

/-- A condition is read back as data, or not at all. -/
theorem conditionOf_reparsed : ∀ condition : Condition,
    conditionOf (conditionJson condition).reparsed =
      if condition.isSerializable then some condition.asData else none
  | .always => rfl
  | .comparison comparison => by
    change (comparisonOf [("kind", .string "comparison"),
      ("attribute", .string comparison.attribute),
      ("operator", .string (operatorText comparison.operator)),
      ("value", (literalJson comparison.value).reparsed)]).map Condition.comparison = _
    rw [comparisonOf_reparsed, Condition.isSerializable, Condition.asData]
    cases comparison.value.isSerializable <;> rfl
  | .and operands => by
    change (everyOf (PlainValue.reparsedItems (operandsJson operands))).map Condition.and = _
    rw [everyOf_reparsed operands, Condition.isSerializable, Condition.asData]
    cases Condition.isSerializableOperands operands <;> rfl
  | .or operands => by
    change (everyOf (PlainValue.reparsedItems (operandsJson operands))).map Condition.or = _
    rw [everyOf_reparsed operands, Condition.isSerializable, Condition.asData]
    cases Condition.isSerializableOperands operands <;> rfl
  | .not operand => by
    change (conditionOf (conditionJson operand).reparsed).map Condition.not = _
    rw [conditionOf_reparsed operand, Condition.isSerializable, Condition.asData]
    cases operand.isSerializable <;> rfl

/-- So are its operands. -/
theorem everyOf_reparsed : ∀ operands : List Condition,
    everyOf (PlainValue.reparsedItems (operandsJson operands)) =
      if Condition.isSerializableOperands operands then
        some (Condition.asDataOperands operands) else none
  | [] => rfl
  | operand :: operands => by
    rw [operandsJson, PlainValue.reparsedItems, everyOf, conditionOf_reparsed operand,
      everyOf_reparsed operands, Condition.isSerializableOperands, Condition.asDataOperands]
    cases operand.isSerializable <;> cases Condition.isSerializableOperands operands <;> rfl

end

/-- The rule as data. -/
theorem ruleOf_reparsed (rule : Policy.Rule) :
    ruleOf (ruleJson rule).reparsed =
      if rule.condition.isSerializable then
        some { rule with condition := rule.condition.asData } else none := by
  obtain ⟨effect, condition, description⟩ := rule
  have hcondition := conditionOf_reparsed condition
  cases description with
  | none =>
    simp only [ruleJson, Option.toList_none, List.map_nil, List.append_nil, PlainValue.reparsed,
      PlainValue.reparsedFields, ruleOf, PlainValue.property, List.find?_cons, List.find?_nil,
      String.reduceEq, decide_false, decide_true, Option.map_some, Option.map_none,
      Option.bind_some, hcondition]
    cases condition.isSerializable
    · rfl
    · simp [effectOf_text]
  | some description =>
    simp only [ruleJson, Option.toList_some, List.map_cons, List.map_nil, List.cons_append,
      List.nil_append, PlainValue.reparsed, PlainValue.reparsedFields, ruleOf, PlainValue.property,
      List.find?_cons, String.reduceEq, decide_false, decide_true, Option.map_some,
      Option.bind_some, hcondition]
    cases condition.isSerializable
    · rfl
    · simp [effectOf_text]

/-- All rules are read back, or none. -/
theorem rulesFrom_reparsed (policyId : String) (index : ℕ) (rules : List Policy.Rule) :
    (rules.all (fun rule => rule.condition.isSerializable) = true →
      rulesFrom policyId index (rules.map fun rule => (ruleJson rule).reparsed) =
        .ok (rules.map fun rule => { rule with condition := rule.condition.asData })) ∧
    (rules.all (fun rule => rule.condition.isSerializable) = false →
      ∃ error, rulesFrom policyId index (rules.map fun rule => (ruleJson rule).reparsed) =
        .error error) := by
  induction rules generalizing index with
  | nil => simp [rulesFrom]
  | cons rule rules ih =>
    obtain ⟨hok, herror⟩ := ih (index + 1)
    rw [List.map_cons, rulesFrom, ruleOf_reparsed, List.all_cons]
    cases rule.condition.isSerializable with
    | false => exact ⟨nofun, fun _ => ⟨_, rfl⟩⟩
    | true =>
      refine ⟨fun h => ?_, fun h => ?_⟩
      · rw [if_pos rfl, hok (by simpa using h)]
        rfl
      · obtain ⟨error, heq⟩ := herror (by simpa using h)
        rw [if_pos rfl, heq]
        exact ⟨error, rfl⟩

/-- The row of a policy is read as that policy if all its literals have a text in JSON. -/
theorem toDomain_toRow {policy : Policy} (h : policy.isSerializable = true) :
    toDomain (toRow policy) = .ok policy.asData := by
  have hrules := (rulesFrom_reparsed policy.id 0 policy.rules).1 h
  rw [toDomain, toRow, PlainValue.reparsed, PlainValue.reparsedItems_eq_map, List.map_map,
    Function.comp_def, rulesFromJson, hrules]
  rfl

/-- Otherwise it cannot be read. -/
theorem toDomain_toRow_error {policy : Policy} (h : policy.isSerializable = false) :
    ∃ error, toDomain (toRow policy) = .error error := by
  obtain ⟨error, hrules⟩ := (rulesFrom_reparsed policy.id 0 policy.rules).2 h
  refine ⟨error, ?_⟩
  rw [toDomain, toRow, PlainValue.reparsed, PlainValue.reparsedItems_eq_map, List.map_map,
    Function.comp_def, rulesFromJson, hrules]
  rfl

end PolicyMapper

end Verixa.Authorization
