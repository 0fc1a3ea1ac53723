import Verixa.Authorization.PolicyStorage

/-!
# Conditions of loaded policies

A row of the table `policies` may hold any JSON in its rules.  `isCondition` recognizes what is a
condition, and a loaded rule has that JSON itself as its condition.  The recognizer turns the
operator into a text before it compares it, and it has nothing to object to in an empty list of
operands.  So a loaded condition is one that the constructors could have built exactly if its
operators are texts and its lists of operands are not empty (`loaded_constructed_iff`).
-/

namespace Verixa.Authorization

/-- `String(value)` for a number, given the texts of the finite ones. -/
def numberText (numerals : ℚ → String) : Number → String
  | .nan => "NaN"
  | .infinity => "Infinity"
  | .negativeInfinity => "-Infinity"
  | .finite value => numerals value

/-- A row of the table `policies`, whatever JSON it holds. -/
structure StoredPolicyRow where
  id : String
  version : ℕ
  name : String
  resourceType : String
  actions : PlainValue
  rules : PlainValue
  dslSource : Option String
  status : PolicyStatus
  createdAt : ℤ

/-- A rule with the JSON that is its condition. -/
structure LoadedRule where
  effect : Effect
  condition : PlainValue
  description : Option String

/-- A policy as it is loaded. -/
structure LoadedPolicy where
  id : String
  name : String
  target : PolicyTarget
  rules : List LoadedRule
  version : ℕ
  createdAt : ℤ
  status : PolicyStatus
  dslSource : Option String

/-- `value === null`. -/
def isNull : PlainValue → Bool
  | .null => true
  | _ => false

namespace PolicyMapper

/-! ## The recognizer -/

section Recognizer

variable (numerals : ℚ → String)

mutual

/-- `String(value)`; an object with a property `toString` of its own has no text. -/
def textOf : PlainValue → Except ThrownError String
  | .null => .ok "null"
  | .boolean true => .ok "true"
  | .boolean false => .ok "false"
  | .number value => .ok (numberText numerals value)
  | .string value => .ok value
  | .array items => joined items
  | .object fields =>
    if (PlainValue.property fields "toString").isSome then
      .error { name := "TypeError", message := "Cannot convert object to primitive value" }
    else .ok "[object Object]"

/-- `items.join(",")`. -/
def joined : List PlainValue → Except ThrownError String
  | [] => .ok ""
  | item :: items => do
    let first ← if isNull item then .ok "" else textOf item
    let rest ← joined items
    return if items.isEmpty then first else first ++ "," ++ rest

end

/-- The texts that an operator may have. -/
def operatorTexts : List String := ["eq", "neq", "lt", "lte", "gt", "gte", "in", "contains"]

/-- The text of a property; one that is missing has the text of `undefined`. -/
def propertyText (value : Option PlainValue) : Except ThrownError String :=
  match value with
  | none => .ok "undefined"
  | some value => textOf numerals value

/-- Whether a value may be the right-hand side of a comparison. -/
def isLiteral : PlainValue → Bool
  | .string _ | .number _ | .boolean _ => true
  | .array items => items.all fun item => (itemOf item).isSome
  | _ => false

/-- `isCondition`, for a comparison. -/
def isComparison (fields : List (String × PlainValue)) : Except ThrownError Bool :=
  match PlainValue.property fields "attribute" with
  | some (.string _) => do
    let operator ← propertyText numerals (PlainValue.property fields "operator")
    return operatorTexts.contains operator &&
      ((PlainValue.property fields "value").map isLiteral).getD false
  | _ => .ok false

mutual

/-- `isCondition(value)`. -/
def isCondition : PlainValue → Except ThrownError Bool
  | .object fields =>
    match PlainValue.property fields "kind" with
    | some (.string "always") => .ok true
    | some (.string "comparison") => isComparison numerals fields
    | some (.string "and") => operandsAreConditions fields
    | some (.string "or") => operandsAreConditions fields
    | some (.string "not") => operandIsCondition fields
    | _ => .ok false
  | _ => .ok false

/-- `isCondition(value["operand"])`. -/
def operandIsCondition : List (String × PlainValue) → Except ThrownError Bool
  | [] => .ok false
  | (key, value) :: fields =>
    if key = "operand" then isCondition value else operandIsCondition fields

/-- `Array.isArray(value["operands"]) && value["operands"].every(isCondition)`. -/
def operandsAreConditions : List (String × PlainValue) → Except ThrownError Bool
  | [] => .ok false
  | (key, value) :: fields =>
    if key = "operands" then everyIsCondition value else operandsAreConditions fields

/-- The same for the value of that property. -/
def everyIsCondition : PlainValue → Except ThrownError Bool
  | .array items => allAreConditions items
  | _ => .ok false

/-- `items.every(isCondition)`. -/
def allAreConditions : List PlainValue → Except ThrownError Bool
  | [] => .ok true
  | item :: items => do
    if ← isCondition item then allAreConditions items else return false

end

/-! ## Loading -/

/-- The rule that a value is, if it is one. -/
def loadedRuleOf : PlainValue → Except ThrownError (Option LoadedRule)
  | .object fields =>
    match PlainValue.property fields "effect", PlainValue.property fields "condition" with
    | some (.string text), some condition =>
      match effectOf text with
      | none => .ok none
      | some effect => do
        if ← isCondition numerals condition then
          match PlainValue.property fields "description" with
          | none => return some ⟨effect, condition, none⟩
          | some (.string description) => return some ⟨effect, condition, some description⟩
          | some _ => return none
        else return none
    | _, _ => .ok none
  | _ => .ok none

/-- The rules from an index on. -/
def loadedRulesFrom (policyId : String) :
    ℕ → List PlainValue → Except ThrownError (List LoadedRule)
  | _, [] => .ok []
  | index, rule :: rules => do
    match ← loadedRuleOf numerals rule with
    | none => .error { message :=
        "policies.id=" ++ policyId ++ " has an invalid rule at index " ++ Nat.repr index ++ "." }
    | some rule => return rule :: (← loadedRulesFrom policyId (index + 1) rules)

def loadedRules (policyId : String) : PlainValue → Except ThrownError (List LoadedRule)
  | .array rules => loadedRulesFrom numerals policyId 0 rules
  | _ => .error { message :=
      "policies.id=" ++ policyId ++ " has a rules value that is not an array." }

/-- The actions of a row, if they are texts. -/
def actionsOf : PlainValue → Option (List String)
  | .array actions => actions.mapM fun action =>
    match action with
    | .string text => some text
    | _ => none
  | _ => none

/-- `PolicyMapper.toDomain(row)`. -/
def load (row : StoredPolicyRow) : Except ThrownError LoadedPolicy :=
  match actionsOf row.actions with
  | none => .error { message := "policies.id=" ++ row.id ++ " has an invalid actions selector." }
  | some actions => do
    let rules ← loadedRules numerals row.id row.rules
    return { id := row.id, name := row.name, target := ⟨row.resourceType, actions⟩,
             rules := rules, version := row.version, createdAt := row.createdAt,
             status := row.status, dslSource := row.dslSource }

end Recognizer

/-! ## Conditions of the constructors -/

mutual

/-- Every operator of the condition is a text, and no list of operands is empty. -/
def operatorsAndOperandsGiven : PlainValue → Bool
  | .object fields =>
    match PlainValue.property fields "kind" with
    | some (.string "comparison") =>
      match PlainValue.property fields "operator" with
      | some (.string _) => true
      | _ => false
    | some (.string "and") => givenInOperands fields
    | some (.string "or") => givenInOperands fields
    | some (.string "not") => givenInOperand fields
    | _ => true
  | _ => true

/-- So it is in the operand of a negation. -/
def givenInOperand : List (String × PlainValue) → Bool
  | [] => true
  | (key, value) :: fields =>
    if key = "operand" then operatorsAndOperandsGiven value else givenInOperand fields

/-- So it is in the operands, and there are some. -/
def givenInOperands : List (String × PlainValue) → Bool
  | [] => true
  | (key, value) :: fields => if key = "operands" then givenInList value else givenInOperands fields

def givenInList : PlainValue → Bool
  | .array [] => false
  | .array items => givenInAll items
  | _ => true

def givenInAll : List PlainValue → Bool
  | [] => true
  | item :: items => operatorsAndOperandsGiven item && givenInAll items

end

/-- The conditions that a rules column holds. -/
def conditionsIn : PlainValue → List PlainValue
  | .array rules => rules.filterMap fun rule =>
    match rule with
    | .object fields => PlainValue.property fields "condition"
    | _ => none
  | _ => []

/-- The condition is one that the constructors build. -/
def ConstructedJson (value : PlainValue) : Prop :=
  ∃ condition, conditionOf value = some condition ∧ condition.Constructed

/-! ## Comparisons -/

theorem isSome_mapM {α β : Type*} (f : α → Option β) (items : List α) :
    (items.mapM f).isSome = items.all fun item => (f item).isSome := by
  induction items with
  | nil => rfl
  | cons item items ih =>
    rw [List.mapM_cons, List.all_cons, ← ih]
    cases f item with
    | none => rfl
    | some first => cases items.mapM f <;> rfl

theorem isSome_literalOf (value : PlainValue) : (literalOf value).isSome = isLiteral value := by
  cases value with
  | array items => rw [literalOf, Option.isSome_map, isSome_mapM, isLiteral]
  | _ => rfl

theorem isSome_operatorOf (text : String) :
    (operatorOf text).isSome = operatorTexts.contains text := by
  have htexts : operatorTexts =
      [.eq, .neq, .lt, .lte, .gt, .gte, .in, .contains].map operatorText := rfl
  rw [operatorOf, Bool.eq_iff_iff, List.find?_isSome, htexts, List.contains_iff_mem, List.mem_map]
  simp only [decide_eq_true_eq]

/-- A recognized comparison with a text for its operator is a comparison. -/
theorem exists_comparisonOf_iff (numerals : ℚ → String) {fields : List (String × PlainValue)}
    (h : isComparison numerals fields = .ok true) :
    (∃ leaf, comparisonOf fields = some leaf) ↔
      ∃ operator, PlainValue.property fields "operator" = some (.string operator) := by
  unfold isComparison at h
  split at h
  · rename_i path hpath
    constructor
    · rintro ⟨leaf, hleaf⟩
      unfold comparisonOf at hleaf
      split at hleaf
      · rename_i operator value _ hoperator _
        exact ⟨operator, hoperator⟩
      · cases hleaf
    · rintro ⟨operator, hoperator⟩
      rw [hoperator] at h
      change Except.ok (operatorTexts.contains operator && _) = Except.ok true at h
      rw [Except.ok.injEq, Bool.and_eq_true, ← isSome_operatorOf] at h
      obtain ⟨hknown, hliteral⟩ := h
      obtain ⟨comparisonOperator, hcomparison⟩ := Option.isSome_iff_exists.mp hknown
      cases hvalue : PlainValue.property fields "value" with
      | none =>
        rw [hvalue] at hliteral
        cases hliteral
      | some value =>
        rw [hvalue, Option.map_some, Option.getD_some, ← isSome_literalOf] at hliteral
        obtain ⟨literal, hliteral⟩ := Option.isSome_iff_exists.mp hliteral
        refine ⟨⟨path, comparisonOperator, literal⟩, ?_⟩
        simp only [comparisonOf, hpath, hoperator, hvalue, hcomparison, hliteral]
        rfl
  · cases h

/-! ## Conditions by their parts -/

end PolicyMapper

namespace Condition

theorem andOf_eq_ok {operands : List Condition} {condition : Condition} :
    andOf operands = .ok condition ↔ operands ≠ [] ∧ condition = .and operands := by
  unfold andOf
  split
  · rename_i hlength
    exact ⟨(by rintro ⟨⟩), fun h => absurd (List.length_eq_zero_iff.mp hlength) h.1⟩
  · rename_i hlength
    rw [Except.ok.injEq]
    exact ⟨fun h => ⟨fun hnil => hlength (by rw [hnil]; rfl), h.symm⟩, fun h => h.2.symm⟩

theorem orOf_eq_ok {operands : List Condition} {condition : Condition} :
    orOf operands = .ok condition ↔ operands ≠ [] ∧ condition = .or operands := by
  unfold orOf
  split
  · rename_i hlength
    exact ⟨(by rintro ⟨⟩), fun h => absurd (List.length_eq_zero_iff.mp hlength) h.1⟩
  · rename_i hlength
    rw [Except.ok.injEq]
    exact ⟨fun h => ⟨fun hnil => hlength (by rw [hnil]; rfl), h.symm⟩, fun h => h.2.symm⟩

/-- What the constructors ask of the parts of a condition. -/
def PartsConstructed : Condition → Prop
  | .always | .comparison _ => True
  | .and operands | .or operands => operands ≠ [] ∧ ∀ operand ∈ operands, operand.Constructed
  | .not operand => operand.Constructed

theorem constructed_iff {condition : Condition} :
    condition.Constructed ↔ condition.PartsConstructed := by
  constructor
  · intro h
    cases h with
    | always => trivial
    | comparison leaf => trivial
    | and all built =>
      obtain ⟨hne, rfl⟩ := andOf_eq_ok.mp built
      exact ⟨hne, all⟩
    | or all built =>
      obtain ⟨hne, rfl⟩ := orOf_eq_ok.mp built
      exact ⟨hne, all⟩
    | not built => exact built
  · intro h
    cases condition with
    | always => exact .always
    | comparison leaf => exact .comparison leaf
    | and operands => exact .and h.2 (andOf_eq_ok.mpr ⟨h.1, rfl⟩)
    | or operands => exact .or h.2 (orOf_eq_ok.mpr ⟨h.1, rfl⟩)
    | not operand => exact .not h

end Condition

namespace PolicyMapper

/-! ## Conditions that are recognized -/

/-- The values are conditions that the constructors build. -/
def ConstructedOperands (operands : Option (List Condition)) : Prop :=
  ∃ conditions, operands = some conditions ∧ ∀ condition ∈ conditions, condition.Constructed

/-- There are operands, and the constructors build them. -/
def ConstructedParts (operands : Option (List Condition)) : Prop :=
  ∃ conditions, operands = some conditions ∧ conditions ≠ [] ∧
    ∀ condition ∈ conditions, condition.Constructed

/-- A conjunction or disjunction is constructed if its operands are. -/
theorem constructed_map_iff {operands : Option (List Condition)}
    {node : List Condition → Condition} (hnode : node = .and ∨ node = .or) :
    (∃ condition, operands.map node = some condition ∧ condition.Constructed) ↔
      ConstructedParts operands := by
  constructor
  · rintro ⟨condition, hcondition, hconstructed⟩
    obtain ⟨conditions, hconditions, rfl⟩ := Option.map_eq_some_iff.mp hcondition
    rw [Condition.constructed_iff] at hconstructed
    rcases hnode with rfl | rfl <;> exact ⟨conditions, hconditions, hconstructed⟩
  · rintro ⟨conditions, rfl, hconstructed⟩
    refine ⟨node conditions, rfl, ?_⟩
    rw [Condition.constructed_iff]
    rcases hnode with rfl | rfl <;> exact hconstructed

theorem constructed_not_iff {operand : Option Condition} :
    (∃ condition, operand.map Condition.not = some condition ∧ condition.Constructed) ↔
      ∃ condition, operand = some condition ∧ condition.Constructed := by
  constructor
  · rintro ⟨condition, hcondition, hconstructed⟩
    obtain ⟨inner, hinner, rfl⟩ := Option.map_eq_some_iff.mp hcondition
    exact ⟨inner, hinner, Condition.constructed_iff.mp hconstructed⟩
  · rintro ⟨inner, rfl, hconstructed⟩
    exact ⟨.not inner, rfl, .not hconstructed⟩

section Recognized

variable (numerals : ℚ → String)

/-- All are recognized if the first is and the others are. -/
theorem allAreConditions_cons {numerals : ℚ → String} {item : PlainValue}
    {items : List PlainValue} (h : allAreConditions numerals (item :: items) = .ok true) :
    isCondition numerals item = .ok true ∧ allAreConditions numerals items = .ok true := by
  rw [allAreConditions] at h
  cases hitem : isCondition numerals item with
  | error error =>
    rw [hitem] at h
    cases h
  | ok answer =>
    rw [hitem] at h
    cases answer with
    | false => cases h
    | true => exact ⟨rfl, h⟩

mutual

/-- By induction on the value: what is recognized is a condition of the constructors exactly if its
operators are texts and no list of operands in it is empty. -/
theorem constructed_iff_given : ∀ value : PlainValue, isCondition numerals value = .ok true →
    (ConstructedJson value ↔ operatorsAndOperandsGiven value = true)
  | .object fields, h => by
    unfold isCondition at h
    unfold ConstructedJson conditionOf operatorsAndOperandsGiven
    split at h
    · rename_i hkind
      rw [hkind]
      exact ⟨fun _ => rfl, fun _ => ⟨.always, rfl, .always⟩⟩
    · rename_i hkind
      rw [hkind]
      have hleaf := exists_comparisonOf_iff numerals h
      constructor
      · rintro ⟨condition, hcondition, -⟩
        obtain ⟨leaf, hcomparison, -⟩ := Option.map_eq_some_iff.mp hcondition
        obtain ⟨operator, hoperator⟩ := hleaf.mp ⟨leaf, hcomparison⟩
        rw [hoperator]
        rfl
      · intro hgiven
        change (match PlainValue.property fields "operator" with
          | some (PlainValue.string _) => true
          | _ => false) = true at hgiven
        split at hgiven
        · rename_i operator hoperator
          obtain ⟨leaf, hcomparison⟩ := hleaf.mpr ⟨operator, hoperator⟩
          exact ⟨.comparison leaf, by rw [hcomparison]; rfl, .comparison leaf⟩
        · cases hgiven
    · rename_i hkind
      rw [hkind]
      exact (constructed_map_iff (.inl rfl)).trans (constructedOperands_iff_given fields h)
    · rename_i hkind
      rw [hkind]
      exact (constructed_map_iff (.inr rfl)).trans (constructedOperands_iff_given fields h)
    · rename_i hkind
      rw [hkind]
      exact constructed_not_iff.trans (constructedOperand_iff_given fields h)
    · cases h
  | .null, h | .boolean _, h | .number _, h | .string _, h | .array _, h => nomatch h

theorem constructedOperand_iff_given : ∀ fields : List (String × PlainValue),
    operandIsCondition numerals fields = .ok true →
    ((∃ condition, operandIn fields = some condition ∧ condition.Constructed) ↔
      givenInOperand fields = true)
  | [], h => nomatch h
  | (key, value) :: fields, h => by
    unfold operandIsCondition at h
    unfold operandIn givenInOperand
    by_cases hkey : key = "operand"
    · rw [if_pos hkey] at h ⊢
      rw [if_pos hkey]
      exact constructed_iff_given value h
    · rw [if_neg hkey] at h ⊢
      rw [if_neg hkey]
      exact constructedOperand_iff_given fields h

theorem constructedOperands_iff_given : ∀ fields : List (String × PlainValue),
    operandsAreConditions numerals fields = .ok true →
    (ConstructedParts (operandsIn fields) ↔ givenInOperands fields = true)
  | [], h => nomatch h
  | (key, value) :: fields, h => by
    unfold operandsAreConditions at h
    unfold operandsIn givenInOperands
    by_cases hkey : key = "operands"
    · rw [if_pos hkey] at h ⊢
      rw [if_pos hkey]
      exact constructedList_iff_given value h
    · rw [if_neg hkey] at h ⊢
      rw [if_neg hkey]
      exact constructedOperands_iff_given fields h

theorem constructedList_iff_given : ∀ value : PlainValue,
    everyIsCondition numerals value = .ok true →
    (ConstructedParts (operandsOf value) ↔ givenInList value = true)
  | .array items, h => by
    have hall := constructedAll_iff_given items h
    cases items with
    | nil =>
      refine ⟨?_, (by rintro ⟨⟩)⟩
      rintro ⟨conditions, hconditions, hne, -⟩
      exact absurd (Option.some.inj hconditions).symm hne
    | cons item items =>
      refine Iff.trans ⟨?_, ?_⟩ hall
      · rintro ⟨conditions, hconditions, -, hconstructed⟩
        exact ⟨conditions, hconditions, hconstructed⟩
      · rintro ⟨conditions, hconditions, hconstructed⟩
        refine ⟨conditions, hconditions, ?_, hconstructed⟩
        rintro rfl
        unfold everyOf at hconditions
        split at hconditions <;> cases hconditions
  | .null, h | .boolean _, h | .number _, h | .string _, h | .object _, h => nomatch h

theorem constructedAll_iff_given : ∀ items : List PlainValue,
    allAreConditions numerals items = .ok true →
    (ConstructedOperands (everyOf items) ↔ givenInAll items = true)
  | [], _ => ⟨fun _ => rfl, fun _ => ⟨[], rfl, by simp⟩⟩
  | item :: items, h => by
    obtain ⟨hitem, hitems⟩ := allAreConditions_cons h
    rw [givenInAll, Bool.and_eq_true, ← constructed_iff_given item hitem,
      ← constructedAll_iff_given items hitems, everyOf]
    constructor
    · rintro ⟨conditions, hconditions, hconstructed⟩
      split at hconditions
      · rename_i first rest hfirst hrest
        obtain rfl := Option.some.inj hconditions
        rw [List.forall_mem_cons] at hconstructed
        exact ⟨⟨first, hfirst, hconstructed.1⟩, ⟨rest, hrest, hconstructed.2⟩⟩
      · cases hconditions
    · rintro ⟨⟨first, hfirst, hconstructed⟩, rest, hrest, hall⟩
      rw [hfirst, hrest]
      exact ⟨first :: rest, rfl, List.forall_mem_cons.mpr ⟨hconstructed, hall⟩⟩

end

end Recognized

/-! ## Rules that are loaded -/

section Loading

variable {numerals : ℚ → String}

/-- A loaded rule has the condition that stands in the JSON, and that was recognized. -/
theorem loadedRuleOf_eq_ok {value : PlainValue} {rule : LoadedRule}
    (h : loadedRuleOf numerals value = .ok (some rule)) :
    isCondition numerals rule.condition = .ok true ∧
      ∃ fields, value = .object fields ∧
        PlainValue.property fields "condition" = some rule.condition := by
  unfold loadedRuleOf at h
  split at h
  · rename_i fields
    split at h
    · rename_i text condition _ hcondition
      split at h
      · cases h
      · cases hanswer : isCondition numerals condition with
        | error error =>
          rw [hanswer] at h
          cases h
        | ok answer =>
          rw [hanswer] at h
          cases answer with
          | false => cases h
          | true =>
            change (match PlainValue.property fields "description" with
              | none => _
              | some (PlainValue.string description) => _
              | some _ => _) = _ at h
            split at h
            · cases h
              exact ⟨hanswer, fields, rfl, hcondition⟩
            · cases h
              exact ⟨hanswer, fields, rfl, hcondition⟩
            · cases h
    · cases h
  · cases h

theorem loadedRulesFrom_cons {policyId : String} {index : ℕ} {value : PlainValue}
    {values : List PlainValue} {rules : List LoadedRule}
    (h : loadedRulesFrom numerals policyId index (value :: values) = .ok rules) :
    ∃ rule rest, loadedRuleOf numerals value = .ok (some rule) ∧
      loadedRulesFrom numerals policyId (index + 1) values = .ok rest ∧ rules = rule :: rest := by
  rw [loadedRulesFrom] at h
  cases hrule : loadedRuleOf numerals value with
  | error error =>
    rw [hrule] at h
    cases h
  | ok found =>
    rw [hrule] at h
    cases found with
    | none => cases h
    | some rule =>
      cases hrest : loadedRulesFrom numerals policyId (index + 1) values with
      | error error =>
        change (loadedRulesFrom numerals policyId (index + 1) values >>= _) = _ at h
        rw [hrest] at h
        cases h
      | ok rest =>
        change (loadedRulesFrom numerals policyId (index + 1) values >>= _) = _ at h
        rw [hrest] at h
        exact ⟨rule, rest, rfl, rfl, (Except.ok.inj h).symm⟩

/-- The conditions that are loaded are those of the column, and all are recognized. -/
theorem conditions_of_loadedRulesFrom {policyId : String} {index : ℕ} {values : List PlainValue}
    {rules : List LoadedRule} (h : loadedRulesFrom numerals policyId index values = .ok rules) :
    conditionsIn (.array values) = rules.map LoadedRule.condition ∧
      ∀ rule ∈ rules, isCondition numerals rule.condition = .ok true := by
  induction values generalizing index rules with
  | nil =>
    obtain rfl := Except.ok.inj h
    exact ⟨rfl, by simp⟩
  | cons value values ih =>
    obtain ⟨rule, rest, hrule, hrest, rfl⟩ := loadedRulesFrom_cons h
    obtain ⟨hconditions, hrecognized⟩ := ih hrest
    obtain ⟨hcondition, fields, rfl, hproperty⟩ := loadedRuleOf_eq_ok hrule
    constructor
    · rw [List.map_cons, ← hconditions]
      simp only [conditionsIn, List.filterMap_cons, hproperty]
    · exact List.forall_mem_cons.mpr ⟨hcondition, hrecognized⟩

theorem conditions_of_load {row : StoredPolicyRow} {policy : LoadedPolicy}
    (h : load numerals row = .ok policy) :
    conditionsIn row.rules = policy.rules.map LoadedRule.condition ∧
      ∀ rule ∈ policy.rules, isCondition numerals rule.condition = .ok true := by
  unfold load at h
  split at h
  · cases h
  · cases hrules : loadedRules numerals row.id row.rules with
    | error error =>
      rw [hrules] at h
      cases h
    | ok rules =>
      rw [hrules] at h
      obtain rfl := Except.ok.inj h
      unfold loadedRules at hrules
      split at hrules
      · rename_i values hvalues
        rw [hvalues]
        exact conditions_of_loadedRulesFrom hrules
      · cases hrules

end Loading

/-! ## Rows with a text for every operator -/

/-- What is read as a comparison is recognized. -/
theorem isComparison_of_comparisonOf (numerals : ℚ → String)
    {fields : List (String × PlainValue)} {leaf : ComparisonCondition}
    (h : comparisonOf fields = some leaf) : isComparison numerals fields = .ok true := by
  unfold comparisonOf at h
  split at h
  · rename_i path operator value hpath hoperator hvalue
    obtain ⟨known, hknown, hrest⟩ := Option.bind_eq_some_iff.mp h
    obtain ⟨literal, hliteral, -⟩ := Option.bind_eq_some_iff.mp hrest
    have hlisted : operatorTexts.contains operator = true := by
      rw [← isSome_operatorOf, hknown, Option.isSome_some]
    have hright : isLiteral value = true := by
      rw [← isSome_literalOf, hliteral, Option.isSome_some]
    rw [isComparison, hpath, hoperator, hvalue]
    change Except.ok (operatorTexts.contains operator && isLiteral value) = _
    rw [hlisted, hright]
    rfl
  · cases h

section Recognition

variable (numerals : ℚ → String)

mutual

/-- What is read as a condition is recognized as one. -/
theorem isCondition_of_conditionOf : ∀ (value : PlainValue) {condition : Condition},
    conditionOf value = some condition → isCondition numerals value = .ok true
  | .object fields, condition, h => by
    unfold conditionOf at h
    split at h
    · rename_i hkind
      unfold isCondition
      rw [hkind]
      rfl
    · rename_i hkind
      obtain ⟨leaf, hleaf, -⟩ := Option.map_eq_some_iff.mp h
      unfold isCondition
      rw [hkind]
      exact isComparison_of_comparisonOf numerals hleaf
    · rename_i hkind
      obtain ⟨operands, hoperands, -⟩ := Option.map_eq_some_iff.mp h
      unfold isCondition
      rw [hkind]
      exact operandsAreConditions_of_operandsIn fields hoperands
    · rename_i hkind
      obtain ⟨operands, hoperands, -⟩ := Option.map_eq_some_iff.mp h
      unfold isCondition
      rw [hkind]
      exact operandsAreConditions_of_operandsIn fields hoperands
    · rename_i hkind
      obtain ⟨operand, hoperand, -⟩ := Option.map_eq_some_iff.mp h
      unfold isCondition
      rw [hkind]
      exact operandIsCondition_of_operandIn fields hoperand
    · cases h
  | .null, _, h | .boolean _, _, h | .number _, _, h | .string _, _, h | .array _, _, h => nomatch h

theorem operandIsCondition_of_operandIn : ∀ (fields : List (String × PlainValue))
    {operand : Condition}, operandIn fields = some operand →
    operandIsCondition numerals fields = .ok true
  | [], _, h => nomatch h
  | (key, value) :: fields, operand, h => by
    rw [operandIn] at h
    rw [operandIsCondition]
    by_cases hkey : key = "operand"
    · rw [if_pos hkey] at h ⊢
      exact isCondition_of_conditionOf value h
    · rw [if_neg hkey] at h ⊢
      exact operandIsCondition_of_operandIn fields h

theorem operandsAreConditions_of_operandsIn : ∀ (fields : List (String × PlainValue))
    {operands : List Condition}, operandsIn fields = some operands →
    operandsAreConditions numerals fields = .ok true
  | [], _, h => nomatch h
  | (key, value) :: fields, operands, h => by
    rw [operandsIn] at h
    rw [operandsAreConditions]
    by_cases hkey : key = "operands"
    · rw [if_pos hkey] at h ⊢
      exact everyIsCondition_of_operandsOf value h
    · rw [if_neg hkey] at h ⊢
      exact operandsAreConditions_of_operandsIn fields h

theorem everyIsCondition_of_operandsOf : ∀ (value : PlainValue) {operands : List Condition},
    operandsOf value = some operands → everyIsCondition numerals value = .ok true
  | .array items, _, h => allAreConditions_of_everyOf items h
  | .null, _, h | .boolean _, _, h | .number _, _, h | .string _, _, h | .object _, _, h =>
    nomatch h

theorem allAreConditions_of_everyOf : ∀ (items : List PlainValue) {operands : List Condition},
    everyOf items = some operands → allAreConditions numerals items = .ok true
  | [], _, _ => rfl
  | item :: items, operands, h => by
    rw [everyOf] at h
    split at h
    · rename_i first rest hfirst hrest
      rw [allAreConditions, isCondition_of_conditionOf item hfirst]
      exact allAreConditions_of_everyOf items hrest
    · cases h

end

/-- The rule, with the JSON of its condition. -/
def LoadsAs (rule : Policy.Rule) (loaded : LoadedRule) : Prop :=
  loaded.effect = rule.effect ∧ conditionOf loaded.condition = some rule.condition ∧
    loaded.description = rule.description

theorem loadedRuleOf_of_ruleOf {value : PlainValue} {rule : Policy.Rule}
    (h : ruleOf value = some rule) :
    ∃ loaded, loadedRuleOf numerals value = .ok (some loaded) ∧ LoadsAs rule loaded := by
  unfold ruleOf at h
  split at h
  · rename_i fields
    split at h
    · rename_i text condition heffect hcondition hdescription
      obtain ⟨json, hjson, hread⟩ := Option.bind_eq_some_iff.mp hcondition
      obtain ⟨effect, hknown, rfl⟩ := Option.map_eq_some_iff.mp h
      refine ⟨⟨effect, json, none⟩, ?_, rfl, hread, rfl⟩
      simp only [loadedRuleOf, heffect, hjson, hknown,
        isCondition_of_conditionOf numerals json hread, hdescription]
      rfl
    · rename_i text condition description heffect hcondition hdescription
      obtain ⟨json, hjson, hread⟩ := Option.bind_eq_some_iff.mp hcondition
      obtain ⟨effect, hknown, rfl⟩ := Option.map_eq_some_iff.mp h
      refine ⟨⟨effect, json, some description⟩, ?_, rfl, hread, rfl⟩
      simp only [loadedRuleOf, heffect, hjson, hknown,
        isCondition_of_conditionOf numerals json hread, hdescription]
      rfl
    · cases h
  · cases h

theorem loadedRulesFrom_of_rulesFrom {policyId : String} {index : ℕ} {values : List PlainValue}
    {rules : List Policy.Rule} (h : rulesFrom policyId index values = .ok rules) :
    ∃ loaded, loadedRulesFrom numerals policyId index values = .ok loaded ∧
      List.Forall₂ LoadsAs rules loaded := by
  induction values generalizing index rules with
  | nil =>
    obtain rfl := Except.ok.inj h
    exact ⟨[], rfl, .nil⟩
  | cons value values ih =>
    rw [rulesFrom] at h
    split at h
    · cases h
    · rename_i rule hrule
      cases hrest : rulesFrom policyId (index + 1) values with
      | error error =>
        rw [hrest] at h
        cases h
      | ok rest =>
        rw [hrest] at h
        obtain rfl := Except.ok.inj h
        obtain ⟨first, hfirst, hloads⟩ := loadedRuleOf_of_ruleOf numerals hrule
        obtain ⟨others, hothers, hall⟩ := ih hrest
        refine ⟨first :: others, ?_, .cons hloads hall⟩
        rw [loadedRulesFrom, hfirst]
        change (loadedRulesFrom numerals policyId (index + 1) values >>= _) = _
        rw [hothers]
        rfl

end Recognition

/-- Where every operator has a text, loading agrees with reading: the rules that are loaded hold
the JSON of those that are read. -/
theorem loadedRules_of_rulesFromJson (numerals : ℚ → String) {policyId : String}
    {json : PlainValue} {rules : List Policy.Rule} (h : rulesFromJson policyId json = .ok rules) :
    ∃ loaded, loadedRules numerals policyId json = .ok loaded ∧
      List.Forall₂ LoadsAs rules loaded := by
  unfold rulesFromJson at h
  split at h
  · exact loadedRulesFrom_of_rulesFrom numerals h
  · cases h

/-- The conditions of a policy that is loaded are such as the constructors build exactly if the
rules column has a text for every operator and no empty list of operands. -/
theorem loaded_constructed_iff (numerals : ℚ → String) (row : StoredPolicyRow)
    (policy : LoadedPolicy) (h : load numerals row = .ok policy) :
    (∀ rule ∈ policy.rules, ConstructedJson rule.condition) ↔
      ∀ value ∈ conditionsIn row.rules, operatorsAndOperandsGiven value = true := by
  obtain ⟨hconditions, hrecognized⟩ := conditions_of_load h
  rw [hconditions, List.forall_mem_map]
  constructor
  · intro hconstructed rule hrule
    exact (constructed_iff_given numerals _ (hrecognized rule hrule)).mp (hconstructed rule hrule)
  · intro hgiven rule hrule
    exact (constructed_iff_given numerals _ (hrecognized rule hrule)).mpr (hgiven rule hrule)

/-- A row with one rule for a condition. -/
def rowOf (condition : PlainValue) : StoredPolicyRow where
  id := "p"
  version := 1
  name := "Readers"
  resourceType := "document"
  actions := .array [.string "read"]
  rules := .array [.object [("effect", .string "PERMIT"), ("condition", condition)]]
  dslSource := none
  status := .published
  createdAt := 0

/-- What is loaded of such a row. -/
def policyOf (condition : PlainValue) : LoadedPolicy where
  id := "p"
  name := "Readers"
  target := ⟨"document", ["read"]⟩
  rules := [⟨.permit, condition, none⟩]
  version := 1
  createdAt := 0
  status := .published
  dslSource := none

theorem loaded_constructed_iff_sample :
    ConstructedJson (conditionJson (.not (.and [.always]))) := by
  have hiff := loaded_constructed_iff (fun _ => "0") (rowOf (conditionJson (.not (.and [.always]))))
    (policyOf (conditionJson (.not (.and [.always])))) rfl
  refine hiff.mpr ?_ _ List.mem_cons_self
  intro value hvalue
  obtain rfl := List.mem_singleton.mp hvalue
  rfl

/-- A conjunction of nothing, which matches every request, is loaded. -/
theorem empty_conjunction_loaded :
    ¬ ∀ (numerals : ℚ → String) (row : StoredPolicyRow) (policy : LoadedPolicy),
      load numerals row = .ok policy → ∀ rule ∈ policy.rules, ConstructedJson rule.condition := by
  intro h
  obtain ⟨condition, hcondition, hconstructed⟩ := h (fun _ => "0")
    (rowOf (conditionJson (.and []))) (policyOf (conditionJson (.and []))) rfl _ List.mem_cons_self
  obtain rfl : Condition.and [] = condition := Option.some.inj hcondition
  exact (Condition.constructed_iff.mp hconstructed).1 rfl

/-- So is a comparison whose operator is a list of one text. -/
example (numerals : ℚ → String) : isCondition numerals (.object [("kind", .string "comparison"),
    ("attribute", .string "resource.ownerId"), ("operator", .array [.string "eq"]),
    ("value", .string "ada")]) = .ok true := rfl

end PolicyMapper

end Verixa.Authorization
