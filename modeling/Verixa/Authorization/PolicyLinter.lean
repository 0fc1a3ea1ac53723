import Mathlib.Tactic
import Verixa.Authorization.Condition

/-!
# The policy linter

The linter looks for two mistakes in an ordered set of rules: two rules of different effect that may
both match a request (a conflict), and a rule that is never reached because an earlier one matches
whatever it matches (a shadowed rule).  It looks at rules whose condition is a conjunction of
`eq` and `neq` comparisons, which it flattens into constraints.

Flattening is exact (`evaluateCondition_iff`), which makes reports of shadowed rules sound
(`shadow_sound`).  Reports of conflicts are right exactly where the constraints of the two rules,
taken together, can be met attribute by attribute (`conflict_reports_right_iff`).
-/

namespace Verixa.Authorization

/-! ## Constraints -/

/-- The operators that the linter understands. -/
inductive ConstraintOperator where
  | equals
  | notEquals
  deriving DecidableEq

/-- A comparison that the linter understands. -/
structure Constraint where
  «attribute» : String
  operator : ConstraintOperator
  value : ComparisonLiteral
  deriving DecidableEq

/-- `a === b`. -/
def ComparisonLiteral.strictEq : ComparisonLiteral → ComparisonLiteral → Bool
  | .string a, .string b => decide (a = b)
  | .number a, .number b => a.strictEq b
  | .boolean a, .boolean b => decide (a = b)
  | .array a _, .array b _ => decide (a = b)
  | _, _ => false

/-- The constraint of a single comparison. -/
def extractLeafConstraint (condition : ComparisonCondition) : Option (List Constraint) :=
  match condition.operator with
  | .eq => some [⟨condition.attribute, .equals, condition.value⟩]
  | .neq => some [⟨condition.attribute, .notEquals, condition.value⟩]
  | _ => none

mutual

/-- The constraints of a conjunction of comparisons, and nothing for other conditions. -/
def extractConstraints : Condition → Option (List Constraint)
  | .comparison comparison => extractLeafConstraint comparison
  | .and operands => extractOperands operands
  | _ => none

/-- The constraints of all operands, one after the other. -/
def extractOperands : List Condition → Option (List Constraint)
  | [] => some []
  | child :: operands =>
    match extractConstraints child with
    | none => none
    | some childConstraints => (extractOperands operands).map (childConstraints ++ ·)

end

-- an empty conjunction asks for nothing
example : extractConstraints (.and []) = some [] := by
  rw [extractConstraints, extractOperands]

/-- Whether every constraint of the broader rule is one of the narrower rule. -/
def implies (broader narrower : List Constraint) : Bool :=
  broader.all fun requirement =>
    narrower.any fun other =>
      decide (other.attribute = requirement.attribute) &&
        decide (other.operator = requirement.operator) && other.value.strictEq requirement.value

/-- Whether two constraints on the same attribute contradict each other. -/
def contradicts (left right : Constraint) : Bool :=
  if left.attribute ≠ right.attribute then false
  else
    match left.operator, right.operator with
    | .equals, .equals => !left.value.strictEq right.value
    | .notEquals, .notEquals => false
    | .equals, .notEquals => left.value.strictEq right.value
    | .notEquals, .equals => right.value.strictEq left.value

/-- Whether no constraint of one rule contradicts one of the other. -/
def overlaps (a b : List Constraint) : Bool :=
  a.all fun left => b.all fun right => !contradicts left right

/-! ## The linter -/

/-- The mistakes that the linter reports. -/
inductive LinterFindingType where
  | conflict
  | shadow
  deriving DecidableEq

/-- A reported mistake. -/
structure LinterFinding where
  type : LinterFindingType
  ruleIds : String × String
  message : String
  deriving DecidableEq

/-- A rule with its constraints. -/
structure AnalyzedRule where
  rule : Rule
  constraints : Option (List Constraint)

/-- The report of a conflict. -/
def conflictFinding (earlier later : Rule) : LinterFinding where
  type := .conflict
  ruleIds := (earlier.id, later.id)
  message :=
    "Rule \"" ++ earlier.id ++ "\" (" ++ earlier.effect.text ++ ") and rule \"" ++ later.id ++
      "\" (" ++ later.effect.text ++ ") have overlapping conditions: some request could satisfy " ++
      "both, but they disagree on the effect."

/-- The report of a shadowed rule. -/
def shadowFinding (earlier later : Rule) : LinterFinding where
  type := .shadow
  ruleIds := (earlier.id, later.id)
  message :=
    "Rule \"" ++ earlier.id ++ "\" is broader than (or equal to) rule \"" ++ later.id ++
      "\" and comes first, so rule \"" ++ later.id ++
      "\" can never be reached under first-applicable."

/-- What is reported of two rules; nothing for a pair that is not analyzed. -/
def lintPair (earlier later : AnalyzedRule) : Option (List LinterFinding) :=
  match earlier.constraints, later.constraints with
  | some earlierConstraints, some laterConstraints =>
    some <|
      (if earlier.rule.effect ≠ later.rule.effect ∧
          overlaps earlierConstraints laterConstraints = true
        then [conflictFinding earlier.rule later.rule] else []) ++
      (if implies earlierConstraints laterConstraints = true
        then [shadowFinding earlier.rule later.rule] else [])
  | _, _ => none

/-- What the linter returns. -/
structure LintResult where
  findings : List LinterFinding
  unanalyzedPairs : ℕ
  deriving DecidableEq

/-- The pairs of an earlier and a later element, in the order in which the linter takes them. -/
def orderedPairs {α : Type*} : List α → List (α × α)
  | [] => []
  | earlier :: rest => rest.map (fun later => (earlier, later)) ++ orderedPairs rest

/-- The linter. -/
def lintPolicySet (policySet : PolicySet) : LintResult :=
  let analyzed := policySet.rules.map fun rule =>
    ({ rule, constraints := extractConstraints rule.condition } : AnalyzedRule)
  let reports := (orderedPairs analyzed).map fun pair => lintPair pair.1 pair.2
  { findings := reports.flatMap fun report => report.getD []
    unanalyzedPairs := reports.count none }

/-! ## Which pairs are reported -/

/-- Two rules of a policy set, the first one standing earlier. -/
structure RulePair (policySet : PolicySet) where
  before : List Rule
  earlier : Rule
  between : List Rule
  later : Rule
  after : List Rule
  rules_eq : policySet.rules = before ++ earlier :: between ++ later :: after

/-- What the linter says about two rules. -/
def RulePair.findings {policySet : PolicySet} (pair : RulePair policySet) : List LinterFinding :=
  (lintPair ⟨pair.earlier, extractConstraints pair.earlier.condition⟩
    ⟨pair.later, extractConstraints pair.later.condition⟩).getD []

/-- The linter reports the two rules. -/
def RulePair.Reported {policySet : PolicySet} (pair : RulePair policySet)
    (type : LinterFindingType) : Prop :=
  ∃ finding ∈ (lintPolicySet policySet).findings, finding ∈ pair.findings ∧ finding.type = type

theorem mem_orderedPairs_iff {α : Type*} {l : List α} {a b : α} :
    (a, b) ∈ orderedPairs l ↔ ∃ before between after, l = before ++ a :: between ++ b :: after := by
  induction l with
  | nil => simp [orderedPairs]
  | cons x l ih =>
    rw [orderedPairs, List.mem_append, ih]
    constructor
    · rintro (h | ⟨before, between, after, rfl⟩)
      · obtain ⟨y, hy, hxy⟩ := List.mem_map.mp h
        obtain ⟨rfl, rfl⟩ := Prod.mk.inj hxy
        obtain ⟨between, after, rfl⟩ := List.append_of_mem hy
        exact ⟨[], between, after, rfl⟩
      · exact ⟨x :: before, between, after, rfl⟩
    · rintro ⟨before, between, after, h⟩
      cases before with
      | nil =>
        obtain ⟨rfl, rfl⟩ := List.cons.inj h
        exact Or.inl (List.mem_map.mpr ⟨b, by simp, rfl⟩)
      | cons y before =>
        obtain ⟨rfl, rfl⟩ := List.cons.inj h
        exact Or.inr ⟨before, between, after, rfl⟩

theorem orderedPairs_map {α β : Type*} (f : α → β) (l : List α) :
    orderedPairs (l.map f) = (orderedPairs l).map (Prod.map f f) := by
  induction l with
  | nil => rfl
  | cons a l ih => simp [orderedPairs, ih, Function.comp_def]

/-- The findings are those about the pairs of rules. -/
theorem mem_findings_iff {policySet : PolicySet} {finding : LinterFinding} :
    finding ∈ (lintPolicySet policySet).findings ↔
      ∃ pair : RulePair policySet, finding ∈ pair.findings := by
  simp only [lintPolicySet, orderedPairs_map, List.map_map, List.mem_flatMap, List.mem_map]
  constructor
  · rintro ⟨_, ⟨⟨earlier, later⟩, hpair, rfl⟩, hfinding⟩
    obtain ⟨before, between, after, hrules⟩ := mem_orderedPairs_iff.mp hpair
    exact ⟨⟨before, earlier, between, later, after, hrules⟩, hfinding⟩
  · rintro ⟨pair, hfinding⟩
    exact ⟨_, ⟨(pair.earlier, pair.later),
      mem_orderedPairs_iff.mpr ⟨pair.before, pair.between, pair.after, pair.rules_eq⟩, rfl⟩,
      hfinding⟩

theorem RulePair.reported_iff {policySet : PolicySet} {pair : RulePair policySet}
    {type : LinterFindingType} : pair.Reported type ↔ ∃ f ∈ pair.findings, f.type = type :=
  ⟨fun ⟨f, _, hf, htype⟩ => ⟨f, hf, htype⟩,
    fun ⟨f, hf, htype⟩ => ⟨f, mem_findings_iff.mpr ⟨pair, hf⟩, hf, htype⟩⟩

/-- A conflict is reported of two rules of different effect whose constraints overlap. -/
theorem RulePair.reported_conflict_iff {policySet : PolicySet} {pair : RulePair policySet} :
    pair.Reported .conflict ↔ pair.earlier.effect ≠ pair.later.effect ∧
      ∃ a b, extractConstraints pair.earlier.condition = some a ∧
        extractConstraints pair.later.condition = some b ∧ overlaps a b = true := by
  rw [reported_iff]
  unfold findings lintPair
  cases extractConstraints pair.earlier.condition <;>
    cases extractConstraints pair.later.condition <;>
    simp [conflictFinding, shadowFinding, or_and_right, exists_or]

/-- A rule is reported as shadowed where the constraints of the earlier rule are among its own. -/
theorem RulePair.reported_shadow_iff {policySet : PolicySet} {pair : RulePair policySet} :
    pair.Reported .shadow ↔
      ∃ a b, extractConstraints pair.earlier.condition = some a ∧
        extractConstraints pair.later.condition = some b ∧ implies a b = true := by
  rw [reported_iff]
  unfold findings lintPair
  cases extractConstraints pair.earlier.condition <;>
    cases extractConstraints pair.later.condition <;>
    simp [conflictFinding, shadowFinding, or_and_right, exists_or]

/-! ## Flattening is exact -/

/-- The comparison that a constraint stands for. -/
def Constraint.toComparison (constraint : Constraint) : ComparisonCondition where
  «attribute» := constraint.attribute
  operator := match constraint.operator with
    | .equals => .eq
    | .notEquals => .neq
  value := constraint.value

/-- The constraint holds of the attributes of a request. -/
def Constraint.Holds (dateParse : String → Option ℤ) (context : AttributeContext)
    (constraint : Constraint) : Prop :=
  evaluateComparison dateParse constraint.toComparison context = true

section

variable {dateParse : String → Option ℤ} {context : AttributeContext}

theorem evaluateComparison_iff {comparison : ComparisonCondition} {constraints : List Constraint}
    (h : extractLeafConstraint comparison = some constraints) :
    evaluateComparison dateParse comparison context = true ↔
      ∀ k ∈ constraints, k.Holds dateParse context := by
  obtain ⟨«attribute», operator, value⟩ := comparison
  cases operator <;> simp only [extractLeafConstraint, Option.some.injEq, reduceCtorEq] at h <;>
    subst h <;> simp [Constraint.Holds, Constraint.toComparison]

mutual

/-- A condition that the linter understands holds exactly where its constraints do. -/
theorem evaluateCondition_iff : ∀ (condition : Condition) {constraints : List Constraint},
    extractConstraints condition = some constraints →
      (evaluateCondition dateParse context condition = true ↔
        ∀ k ∈ constraints, k.Holds dateParse context)
  | .comparison comparison, constraints, h => by
    rw [extractConstraints] at h
    rw [evaluateCondition]
    exact evaluateComparison_iff h
  | .and operands, constraints, h => by
    rw [extractConstraints] at h
    rw [evaluateCondition]
    exact evaluateEvery_iff operands h
  | .always, _, h => by simp [extractConstraints] at h
  | .or _, _, h => by simp [extractConstraints] at h
  | .not _, _, h => by simp [extractConstraints] at h

theorem evaluateEvery_iff : ∀ (operands : List Condition) {constraints : List Constraint},
    extractOperands operands = some constraints →
      (evaluateEvery dateParse context operands = true ↔
        ∀ k ∈ constraints, k.Holds dateParse context)
  | [], constraints, h => by
    obtain rfl : [] = constraints := by simpa [extractOperands] using h
    simp [evaluateEvery]
  | child :: operands, constraints, h => by
    rw [extractOperands] at h
    cases hchild : extractConstraints child with
    | none => simp [hchild] at h
    | some childConstraints =>
      rw [hchild] at h
      obtain ⟨rest, hrest, rfl⟩ := Option.map_eq_some_iff.mp h
      rw [evaluateEvery, Bool.and_eq_true, evaluateCondition_iff child hchild,
        evaluateEvery_iff operands hrest]
      simp [or_imp, forall_and]

end

/-! ## Shadowed rules -/

/-- Literals that are the same compare alike. -/
theorem equalsLiteral_congr {a b : ComparisonLiteral} (h : a.strictEq b = true)
    (actual : Resolved) : equalsLiteral dateParse actual a = equalsLiteral dateParse actual b := by
  cases a <;> cases b <;> simp only [ComparisonLiteral.strictEq, Bool.false_eq_true,
    decide_eq_true_eq, Number.strictEq_iff] at h
  · rw [h]
  · rw [h.1]
  · rw [h]
  · simp [equalsLiteral]

/-- A constraint that occurs among others holds where they do. -/
theorem Constraint.Holds.of_same {k k' : Constraint} (hattribute : k'.attribute = k.attribute)
    (hoperator : k'.operator = k.operator) (hvalue : k'.value.strictEq k.value = true)
    (h : k'.Holds dateParse context) : k.Holds dateParse context := by
  obtain ⟨«attribute», operator, value⟩ := k
  obtain ⟨attribute', operator', value'⟩ := k'
  obtain rfl : attribute' = «attribute» := hattribute
  obtain rfl : operator' = operator := hoperator
  unfold Constraint.Holds evaluateComparison toComparison at *
  cases hresolve : context.resolve attribute' with
  | none => simp [hresolve] at h
  | some actual =>
    cases operator' <;> simp only [hresolve, compareResolved] at h ⊢ <;>
      rw [← equalsLiteral_congr hvalue actual] <;> exact h

/-- If the broader constraints are among the narrower ones, they hold where these do. -/
theorem holds_of_implies {broader narrower : List Constraint}
    (h : implies broader narrower = true) (hnarrower : ∀ k ∈ narrower, k.Holds dateParse context) :
    ∀ k ∈ broader, k.Holds dateParse context := by
  intro k hk
  obtain ⟨k', hk', hsame⟩ := List.any_eq_true.mp (List.all_eq_true.mp h k hk)
  simp only [Bool.and_eq_true, decide_eq_true_eq] at hsame
  exact (hnarrower k' hk').of_same hsame.1.1 hsame.1.2 hsame.2

end

/-- The position of the rule that decides a request under `first-applicable`. -/
def decidingPosition (dateParse : String → Option ℤ) (rules : List Rule)
    (context : AttributeContext) : Option ℕ :=
  (deriveRuleOutcomes dateParse rules context).findIdx? fun outcome => outcome ≠ .notApplicable

/-- The position of the later rule. -/
def RulePair.laterPosition {policySet : PolicySet} (pair : RulePair policySet) : ℕ :=
  (pair.before ++ pair.earlier :: pair.between).length

/-- The rules without the later one. -/
def RulePair.withoutLater {policySet : PolicySet} (pair : RulePair policySet) : List Rule :=
  pair.before ++ pair.earlier :: pair.between ++ pair.after

/-- The first `l.length` elements being known, what stands behind decides only if none of them
does. -/
theorem find?_append_cons_of_imp {α : Type*} {p : α → Bool} {l : List α} {a : α}
    (h : p a = true → ∃ b ∈ l, p b = true) (l' : List α) :
    (l ++ a :: l').find? p = (l ++ l').find? p ∧ (l ++ a :: l').findIdx? p ≠ some l.length := by
  by_cases hl : ∃ b ∈ l, p b = true
  · obtain ⟨b, hb, hpb⟩ := hl
    obtain ⟨i, hi⟩ : ∃ i, l.findIdx? p = some i := by
      rw [← Option.isSome_iff_exists, List.findIdx?_isSome]
      exact List.any_eq_true.mpr ⟨b, hb, hpb⟩
    obtain ⟨c, hc⟩ : ∃ c, l.find? p = some c := by
      rw [← Option.isSome_iff_exists, List.find?_isSome]
      exact ⟨b, hb, hpb⟩
    have hlt : i < l.length := (List.findIdx?_eq_some_iff_getElem.mp hi).choose
    rw [List.find?_append, List.find?_append, hc, List.findIdx?_append, hi]
    simp only [Option.some_or, ne_eq, Option.some.injEq, true_and]
    omega
  · have ha : p a = false := by
      rw [← Bool.not_eq_true]
      exact fun hpa => hl (h hpa)
    have hnone : l.findIdx? p = none := by
      rw [List.findIdx?_eq_none_iff]
      exact fun b hb => Bool.eq_false_iff.mpr fun hpb => hl ⟨b, hb, hpb⟩
    have hskip : (a :: l').find? p = l'.find? p := List.find?_cons_of_neg (by simp [ha])
    rw [List.find?_append, List.find?_append, hskip, List.findIdx?_append, hnone,
      List.findIdx?_cons]
    refine ⟨rfl, ?_⟩
    cases l'.findIdx? p <;> simp [ha]

/-- A rule reported as shadowed matches only where the earlier rule does, and under
`first-applicable` it decides no request: it is never the deciding rule, and the decision is the
same without it. -/
theorem shadow_sound (dateParse : String → Option ℤ) {policySet : PolicySet}
    (pair : RulePair policySet) (hreport : pair.Reported .shadow) (context : AttributeContext) :
    (evaluateRule dateParse pair.later context = true →
      evaluateRule dateParse pair.earlier context = true) ∧
    decidingPosition dateParse policySet.rules context ≠ some pair.laterPosition ∧
    firstApplicable (deriveRuleOutcomes dateParse policySet.rules context) =
      firstApplicable (deriveRuleOutcomes dateParse pair.withoutLater context) := by
  obtain ⟨a, b, ha, hb, himplies⟩ := RulePair.reported_shadow_iff.mp hreport
  have himplied : evaluateRule dateParse pair.later context = true →
      evaluateRule dateParse pair.earlier context = true := by
    intro hlater
    exact (evaluateCondition_iff pair.earlier.condition ha).mpr
      (holds_of_implies himplies ((evaluateCondition_iff pair.later.condition hb).mp hlater))
  have happlies : ∀ rule : Rule, decide ((if evaluateRule dateParse rule context = true then
      RuleOutcome.effect rule.effect else .notApplicable) ≠ .notApplicable) =
        evaluateRule dateParse rule context := by
    intro rule
    split <;> simp_all
  obtain ⟨hfind, hposition⟩ := find?_append_cons_of_imp
    (p := fun rule => evaluateRule dateParse rule context)
    (fun hlater => ⟨pair.earlier, List.mem_append_right pair.before List.mem_cons_self,
      himplied hlater⟩) pair.after
  refine ⟨himplied, ?_, ?_⟩
  · rw [decidingPosition, deriveRuleOutcomes, List.findIdx?_map, pair.rules_eq]
    simp only [Function.comp_def, happlies]
    exact hposition
  · rw [firstApplicable, firstApplicable, deriveRuleOutcomes, deriveRuleOutcomes, List.find?_map,
      List.find?_map, pair.rules_eq, RulePair.withoutLater]
    simp only [Function.comp_def, happlies, hfind]

/-- A rule about administrators. -/
def administratorRule (effect : Effect) : Rule where
  id := effect.text
  effect := effect
  condition := .comparison ⟨"subject.role", .eq, .string "admin"⟩

/-- A request of an administrator. -/
def administratorContext : AttributeContext where
  subject := AttributeBag.ofKeys ["role"] fun _ => .string "admin"
  resource := AttributeBag.ofKeys [] fun _ => .string ""
  action := AttributeBag.ofKeys [] fun _ => .string ""
  environment := AttributeBag.ofKeys [] fun _ => .string ""

/-- Of two rules about administrators, the second one is never reached. -/
theorem shadow_sound_for_administrators :
    evaluateRule (fun _ => none) (administratorRule .deny) administratorContext = true ∧
      decidingPosition (fun _ => none) [administratorRule .permit, administratorRule .deny]
        administratorContext ≠ some 1 :=
  ⟨by decide +kernel,
    (shadow_sound (fun _ => none)
      (⟨[], administratorRule .permit, [], administratorRule .deny, [], rfl⟩ :
        RulePair ⟨"admin", [administratorRule .permit, administratorRule .deny]⟩)
      (RulePair.reported_shadow_iff.mpr ⟨_, _, rfl, rfl, by decide +kernel⟩)
      administratorContext).2.1⟩

end Verixa.Authorization
