import Verixa.Encoding.PlainValue
import Verixa.Encoding.Text
import Verixa.SharedKernel.Errors
import Verixa.SharedKernel.Validation

/-!
# Simulating a policy

`SimulatePolicy` evaluates a policy against fixtures and compares each effect with the expected one.
The engine that evaluates is a port: what it answers may differ from call to call, and it may throw.

A set of fixtures is simulated exactly if it is valid and the engine answers every fixture
(`execute_eq_report_iff`), and then the report succeeds exactly if every fixture has the effect that
is expected of it (`Simulated.success_iff`).
-/

namespace Verixa.Authorization.Decisions

open Encoding

/-! ## Attributes and effects -/

/-- A flat bag of attributes. -/
abbrev AttributeBag := List (String × PlainValue)

/-- The attributes an evaluation may consult. -/
structure AttributeContext where
  subject : AttributeBag
  resource : AttributeBag
  action : AttributeBag
  environment : AttributeBag

def emptyAttributeContext : AttributeContext := ⟨[], [], [], []⟩

/-- What a policy evaluation can conclude. -/
inductive PolicyEffect where
  | permit
  | deny
  | notApplicable
  deriving DecidableEq

/-- The text of an effect. -/
def PolicyEffect.text : PolicyEffect → String
  | permit => "PERMIT"
  | deny => "DENY"
  | notApplicable => "NOT_APPLICABLE"

/-! ## The engine -/

/-- The policy under test. -/
inductive PolicySource where
  | stored (ref : String)
  | draft (label dsl : String)
  deriving DecidableEq

/-- What one rule contributes to a run. -/
structure SimulatedRuleOutcome where
  ruleId : String
  effect : PolicyEffect
  decisive : Bool
  deriving DecidableEq

/-- What the evaluation of one fixture produced. -/
structure PolicySimulationRun where
  policyLabel : String
  combinedEffect : PolicyEffect
  combiningAlgorithm : String
  matchedPolicyIds : List String
  rules : List SimulatedRuleOutcome
  deriving DecidableEq

/-- The engine: what it answers to a call, given how many calls came before. -/
structure PolicySimulationEngine where
  simulate : ℕ → PolicySource → AttributeContext → Except ThrownError PolicySimulationRun

/-! ## Fixtures and reports -/

structure PolicyFixture where
  name : String
  expectedEffect : PolicyEffect
  context : AttributeContext

structure PolicyFixtureSet where
  policy : PolicySource
  fixtures : List PolicyFixture

structure SimulationFixtureResult where
  name : String
  expectedEffect : PolicyEffect
  actualEffect : PolicyEffect
  passed : Bool
  run : PolicySimulationRun
  deriving DecidableEq

structure PolicySimulationReport where
  policyLabel : String
  results : List SimulationFixtureResult
  passed : ℕ
  failed : ℤ
  success : Bool
  deriving DecidableEq

/-! ## The use case -/

/-- Where the errors of a fixture are found. -/
def fixtureField (index : ℕ) : String := "fixtures[" ++ Nat.repr index ++ "]"

/-- The errors of the policy under test. -/
def policyErrors : PolicySource → List (String × List String)
  | .stored ref =>
    if isBlank ref then [("policy.ref", ["A stored policy reference is required."])] else []
  | .draft _ dsl =>
    if isBlank dsl then
      [("policy.dsl", ["A draft policy must contain DSL source; an empty draft evaluates nothing."])]
    else []

/-- The errors and the names seen so far. -/
structure NameCheck where
  errors : ValidationErrorAggregator
  seen : List String

/-- Checks the name of one fixture. -/
def checkName (check : NameCheck) (index : ℕ) (fixture : PolicyFixture) : NameCheck :=
  let field := fixtureField index ++ ".name"
  if isBlank fixture.name then
    { check with errors := check.errors.merge [(field, ["A fixture name is required."])] }
  else if fixture.name ∈ check.seen then
    { check with
      errors := check.errors.merge [(field,
        ["Duplicate fixture name \"" ++ fixture.name ++
          "\" — a duplicate makes it ambiguous which case a result belongs to."])] }
  else { check with seen := check.seen ++ [fixture.name] }

/-- Checks the names of the fixtures from an index on. -/
def checkNames (check : NameCheck) : ℕ → List PolicyFixture → NameCheck
  | _, [] => check
  | index, fixture :: fixtures => checkNames (checkName check index fixture) (index + 1) fixtures

/-- What is wrong with a set of fixtures, if anything is. -/
def validate (fixtureSet : PolicyFixtureSet) : Option ValidationError :=
  let errors := ValidationErrorAggregator.empty.merge (policyErrors fixtureSet.policy)
  let errors :=
    if fixtureSet.fixtures.length = 0 then
      errors.merge [("fixtures",
        ["At least one fixture is required — a simulation with none asserts nothing."])]
    else errors
  let errors := (checkNames ⟨errors, []⟩ 0 fixtureSet.fixtures).errors
  if errors.hasErrors then some (errors.toError "Invalid policy fixture set.") else none

/-- What is reported when no fixture has run. -/
def describePolicy : PolicySource → String
  | .stored ref => ref
  | .draft label _ => label

namespace SimulatePolicy

/-- A fixture and the run of the engine for it. -/
def resultOf (fixture : PolicyFixture) (run : PolicySimulationRun) : SimulationFixtureResult where
  name := fixture.name
  expectedEffect := fixture.expectedEffect
  actualEffect := run.combinedEffect
  passed := run.combinedEffect = fixture.expectedEffect
  run := run

/-- Runs the fixtures, after so many calls of the engine. -/
def runFixtures (engine : PolicySimulationEngine) (policy : PolicySource) :
    ℕ → List PolicyFixture → Except ThrownError (List SimulationFixtureResult)
  | _, [] => .ok []
  | calls, fixture :: fixtures => do
    let run ← engine.simulate calls policy fixture.context
    let results ← runFixtures engine policy (calls + 1) fixtures
    return resultOf fixture run :: results

/-- The report on the results. -/
def reportOn (policy : PolicySource) (results : List SimulationFixtureResult) :
    PolicySimulationReport :=
  let passed := (results.filter (·.passed)).length
  { policyLabel := (results.head?.map (·.run.policyLabel)).getD (describePolicy policy)
    results := results
    passed := passed
    failed := results.length - passed
    success := passed = results.length }

/-- Simulates a policy; a set that is not valid is refused, and what the engine throws is thrown. -/
def execute (engine : PolicySimulationEngine) (fixtureSet : PolicyFixtureSet) :
    Except ThrownError (Except ValidationError PolicySimulationReport) :=
  match validate fixtureSet with
  | some error => .ok (.error error)
  | none => do
    let results ← runFixtures engine fixtureSet.policy 0 fixtureSet.fixtures
    return .ok (reportOn fixtureSet.policy results)

end SimulatePolicy

/-! ## Valid sets -/

/-- A policy that says something. -/
def PolicySource.IsGiven : PolicySource → Prop
  | .stored ref => isBlank ref = false
  | .draft _ dsl => isBlank dsl = false

/-- A set of fixtures that can be simulated: the policy is given, there is a fixture, and every
fixture has a name of its own. -/
structure IsValid (fixtureSet : PolicyFixtureSet) : Prop where
  policy : fixtureSet.policy.IsGiven
  nonempty : fixtureSet.fixtures ≠ []
  named : ∀ fixture ∈ fixtureSet.fixtures, isBlank fixture.name = false
  distinct : (fixtureSet.fixtures.map (·.name)).Nodup

theorem policyErrors_eq_nil_iff {policy : PolicySource} :
    policyErrors policy = [] ↔ policy.IsGiven := by
  cases policy with
  | stored ref => cases h : isBlank ref <;> simp [policyErrors, PolicySource.IsGiven, h]
  | draft label dsl => cases h : isBlank dsl <;> simp [policyErrors, PolicySource.IsGiven, h]

/-- A name is accepted if it is one and was not seen before, and is then seen. -/
theorem checkName_cases (check : NameCheck) (index : ℕ) (fixture : PolicyFixture) :
    (isBlank fixture.name = false ∧ fixture.name ∉ check.seen ∧
      checkName check index fixture = ⟨check.errors, check.seen ++ [fixture.name]⟩) ∨
    ((isBlank fixture.name = true ∨ fixture.name ∈ check.seen) ∧
      (checkName check index fixture).errors.hasErrors = true) := by
  unfold checkName
  by_cases hblank : isBlank fixture.name = true
  · exact .inr ⟨.inl hblank, by simp [hblank, ValidationErrorAggregator.hasErrors_merge]⟩
  · by_cases hseen : fixture.name ∈ check.seen
    · exact .inr ⟨.inr hseen, by simp [hblank, hseen, ValidationErrorAggregator.hasErrors_merge]⟩
    · exact .inl ⟨by simpa using hblank, hseen, by simp [hblank, hseen]⟩

/-- Errors stay. -/
theorem hasErrors_checkNames {check : NameCheck} (h : check.errors.hasErrors = true) (index : ℕ)
    (fixtures : List PolicyFixture) :
    (checkNames check index fixtures).errors.hasErrors = true := by
  induction fixtures generalizing check index with
  | nil => exact h
  | cons fixture fixtures ih =>
    rw [checkNames]
    apply ih
    rcases checkName_cases check index fixture with ⟨-, -, haccepted⟩ | ⟨-, herrors⟩
    · rw [haccepted]
      exact h
    · exact herrors

/-- There are no errors exactly if every name is one and was not seen before. -/
theorem hasErrors_checkNames_iff {check : NameCheck} (h : check.errors.hasErrors = false)
    (index : ℕ) (fixtures : List PolicyFixture) :
    (checkNames check index fixtures).errors.hasErrors = false ↔
      (∀ fixture ∈ fixtures, isBlank fixture.name = false ∧ fixture.name ∉ check.seen) ∧
        (fixtures.map (·.name)).Nodup := by
  induction fixtures generalizing check index with
  | nil => simp [checkNames, h]
  | cons fixture fixtures ih =>
    rw [checkNames]
    rcases checkName_cases check index fixture with ⟨hnamed, hfresh, haccepted⟩ | ⟨hbad, herrors⟩
    · rw [haccepted, @ih ⟨check.errors, check.seen ++ [fixture.name]⟩ h]
      simp only [List.mem_cons, forall_eq_or_imp, List.map_cons, List.nodup_cons, List.mem_append,
        List.not_mem_nil, or_false, not_or, List.mem_map, not_exists, not_and]
      constructor
      · rintro ⟨hall, hnodup⟩
        exact ⟨⟨⟨hnamed, hfresh⟩, fun other hother => ⟨(hall other hother).1,
          (hall other hother).2.1⟩⟩, fun other hother => (hall other hother).2.2, hnodup⟩
      · rintro ⟨⟨-, hall⟩, hothers, hnodup⟩
        exact ⟨fun other hother => ⟨(hall other hother).1, (hall other hother).2,
          hothers other hother⟩, hnodup⟩
    · rw [hasErrors_checkNames herrors]
      constructor
      · intro hfalse
        cases hfalse
      · rintro ⟨hall, -⟩
        obtain ⟨hnamed, hfresh⟩ := hall fixture List.mem_cons_self
        rcases hbad with hblank | hseen
        · rw [hblank] at hnamed
          exact hnamed
        · exact absurd hseen hfresh

/-- Exactly the valid sets have no errors. -/
theorem validate_eq_none_iff {fixtureSet : PolicyFixtureSet} :
    validate fixtureSet = none ↔ IsValid fixtureSet := by
  unfold validate
  dsimp only
  set errors := ValidationErrorAggregator.empty.merge (policyErrors fixtureSet.policy) with herrors
  have hpolicy : errors.hasErrors = false ↔ fixtureSet.policy.IsGiven := by
    rw [herrors, ValidationErrorAggregator.hasErrors_merge, ← policyErrors_eq_nil_iff]
    simp
  by_cases hempty : fixtureSet.fixtures.length = 0
  · have hnil : fixtureSet.fixtures = [] := List.length_eq_zero_iff.mp hempty
    rw [if_pos hempty, if_pos]
    · exact ⟨fun h => (by cases h), fun h => absurd hnil h.nonempty⟩
    · apply hasErrors_checkNames
      rw [ValidationErrorAggregator.hasErrors_merge]
      simp
  · have hne : fixtureSet.fixtures ≠ [] := fun hnil => hempty (by rw [hnil]; rfl)
    rw [if_neg hempty]
    by_cases hgiven : fixtureSet.policy.IsGiven
    · have hnames := @hasErrors_checkNames_iff ⟨errors, []⟩ (hpolicy.mpr hgiven) 0
        fixtureSet.fixtures
      rw [ite_eq_right_iff]
      constructor
      · intro h
        have hok := hnames.mp (by simpa using h)
        exact ⟨hgiven, hne, fun fixture hmem => (hok.1 fixture hmem).1, hok.2⟩
      · intro hvalid htrue
        have hok := hnames.mpr
          ⟨fun fixture hmem => ⟨hvalid.named fixture hmem, by simp⟩, hvalid.distinct⟩
        rw [hok] at htrue
        cases htrue
    · have hsome : errors.hasErrors = true := by
        rw [← Bool.not_eq_false]
        exact fun hfalse => hgiven (hpolicy.mp hfalse)
      rw [if_pos (@hasErrors_checkNames ⟨errors, []⟩ hsome 0 _)]
      exact ⟨fun h => (by cases h), fun h => absurd h.policy hgiven⟩

/-! ## What is reported -/

namespace SimulatePolicy

variable {engine : PolicySimulationEngine} {policy : PolicySource} {fixtures : List PolicyFixture}
  {calls : ℕ}

/-- The engine answers each fixture in turn with one of the runs. -/
inductive Answered (engine : PolicySimulationEngine) (policy : PolicySource) :
    ℕ → List PolicyFixture → List PolicySimulationRun → Prop
  | nil (calls : ℕ) : Answered engine policy calls [] []
  | cons {calls : ℕ} {fixture : PolicyFixture} {fixtures : List PolicyFixture}
      {run : PolicySimulationRun} {runs : List PolicySimulationRun}
      (hrun : engine.simulate calls policy fixture.context = .ok run)
      (hruns : Answered engine policy (calls + 1) fixtures runs) :
      Answered engine policy calls (fixture :: fixtures) (run :: runs)

/-- The results are the fixtures with the runs that the engine answered. -/
theorem runFixtures_eq_ok_iff {results : List SimulationFixtureResult} :
    runFixtures engine policy calls fixtures = .ok results ↔
      ∃ runs, Answered engine policy calls fixtures runs ∧
        results = List.zipWith resultOf fixtures runs := by
  induction fixtures generalizing calls results with
  | nil =>
    constructor
    · intro h
      exact ⟨[], .nil calls, (Except.ok.inj h).symm⟩
    · rintro ⟨runs, hanswered, rfl⟩
      rfl
  | cons fixture fixtures ih =>
    rw [runFixtures]
    constructor
    · intro h
      obtain ⟨run, hrun, hrest⟩ := bind_eq_ok h
      obtain ⟨rest, hresults, hok⟩ := bind_eq_ok hrest
      obtain ⟨runs, hanswered, rfl⟩ := ih.mp hresults
      exact ⟨run :: runs, .cons hrun hanswered, (Except.ok.inj hok).symm⟩
    · rintro ⟨runs, hanswered, rfl⟩
      cases hanswered with
      | cons hrun hruns =>
        rw [hrun, ih.mpr ⟨_, hruns, rfl⟩]
        rfl

theorem Answered.length_eq {runs : List PolicySimulationRun}
    (h : Answered engine policy calls fixtures runs) : runs.length = fixtures.length := by
  induction h with
  | nil => rfl
  | cons _ _ ih => rw [List.length_cons, List.length_cons, ih]

/-- The engine answers the same calls the same. -/
theorem Answered.unique {runs runs' : List PolicySimulationRun}
    (h : Answered engine policy calls fixtures runs)
    (h' : Answered engine policy calls fixtures runs') : runs = runs' := by
  induction h generalizing runs' with
  | nil =>
    cases h'
    rfl
  | cons hrun _ ih =>
    cases h' with
    | cons hrun' hruns' =>
      rw [Except.ok.inj (hrun.symm.trans hrun'), ih hruns']

/-- The run has the effect that the fixture expects. -/
def MeetsExpectation (fixture : PolicyFixture) (run : PolicySimulationRun) : Prop :=
  run.combinedEffect = fixture.expectedEffect

/-- All results have passed exactly if every run meets the expectation. -/
theorem all_passed_iff {runs : List PolicySimulationRun}
    (h : runs.length = fixtures.length) :
    (∀ result ∈ List.zipWith resultOf fixtures runs, result.passed = true) ↔
      List.Forall₂ MeetsExpectation fixtures runs := by
  induction fixtures generalizing runs with
  | nil =>
    obtain rfl := List.length_eq_zero_iff.mp h
    simp
  | cons fixture fixtures ih =>
    cases runs with
    | nil => cases h
    | cons run runs =>
      have hlength : runs.length = fixtures.length := by simpa using h
      rw [List.zipWith_cons_cons, List.forall_mem_cons, ih hlength, List.forall₂_cons]
      simp [resultOf, MeetsExpectation]

/-- A report succeeds exactly if every result has passed. -/
theorem success_reportOn_iff {results : List SimulationFixtureResult} :
    (reportOn policy results).success = true ↔ ∀ result ∈ results, result.passed = true := by
  rw [reportOn, decide_eq_true_iff, List.length_filter_eq_length_iff]

/-- What was simulated: the set is valid, and the engine has answered every fixture. -/
structure Simulated (engine : PolicySimulationEngine) (fixtureSet : PolicyFixtureSet)
    (runs : List PolicySimulationRun) : Prop where
  valid : IsValid fixtureSet
  answered : Answered engine fixtureSet.policy 0 fixtureSet.fixtures runs

/-- The use case reports exactly on what was simulated. -/
theorem execute_eq_report_iff {fixtureSet : PolicyFixtureSet} {report : PolicySimulationReport} :
    execute engine fixtureSet = .ok (.ok report) ↔ ∃ runs, Simulated engine fixtureSet runs ∧
      report = reportOn fixtureSet.policy (List.zipWith resultOf fixtureSet.fixtures runs) := by
  rw [execute]
  split
  · rename_i error herror
    refine ⟨fun h => (by cases h), fun ⟨runs, hsimulated, _⟩ => ?_⟩
    rw [validate_eq_none_iff.mpr hsimulated.valid] at herror
    cases herror
  · rename_i hnone
    constructor
    · intro h
      obtain ⟨results, hresults, hreport⟩ := bind_eq_ok h
      obtain ⟨runs, hanswered, rfl⟩ := runFixtures_eq_ok_iff.mp hresults
      exact ⟨runs, ⟨validate_eq_none_iff.mp hnone, hanswered⟩,
        (Except.ok.inj (Except.ok.inj hreport)).symm⟩
    · rintro ⟨runs, hsimulated, rfl⟩
      rw [runFixtures_eq_ok_iff.mpr ⟨runs, hsimulated.answered, rfl⟩]
      rfl

/-- The report on what was simulated succeeds exactly if every fixture has the effect that is
expected of it. -/
theorem Simulated.success_iff {fixtureSet : PolicyFixtureSet} {runs : List PolicySimulationRun}
    (h : Simulated engine fixtureSet runs) :
    (reportOn fixtureSet.policy (List.zipWith resultOf fixtureSet.fixtures runs)).success = true ↔
      List.Forall₂ MeetsExpectation fixtureSet.fixtures runs := by
  rw [success_reportOn_iff, all_passed_iff h.answered.length_eq]

end SimulatePolicy

end Verixa.Authorization.Decisions
