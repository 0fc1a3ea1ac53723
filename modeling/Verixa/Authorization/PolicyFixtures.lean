import Verixa.Authorization.PolicySimulation

/-!
# Fixture files

`parseFixtureSet` turns the document of a fixture file into a set of fixtures.  It accepts exactly
the documents that denote one (`parseFixtureSet_eq_ok_iff`): other keys than the known ones are
refused at every level but in the attributes.  What is wrong with the fixtures is reported all at
once, under the index of each fixture that is malformed and of no other
(`reports_exactly_malformed`).
-/

namespace Verixa.Authorization.Decisions

open Encoding PlainValue

/-! ## Parsing -/

/-- The fields a fixture file may carry, at each level. -/
def FIXTURE_FILE_KEYS : List String := ["policy", "fixtures"]

@[inherit_doc FIXTURE_FILE_KEYS]
def FIXTURE_KEYS : List String := ["name", "expectedEffect", "context"]

@[inherit_doc FIXTURE_FILE_KEYS]
def POLICY_KEYS : List String := ["kind", "ref", "label", "dsl"]

@[inherit_doc FIXTURE_FILE_KEYS]
def CONTEXT_AXES : List String := ["subject", "resource", "action", "environment"]

def POLICY_EFFECTS : List PolicyEffect := [.permit, .deny, .notApplicable]

def validationError (field message : String) : ValidationError :=
  ⟨"Invalid policy simulation input.", [(field, [message])]⟩

/-- The fields of a value that is an object and no array. -/
def record? : PlainValue → Option AttributeBag
  | .object fields => some fields
  | _ => none

def unexpectedKeys (fields : AttributeBag) (allowed : List String) : List String :=
  (fields.map Prod.fst).filter fun key => key ∉ allowed

/-- A text with something in it. -/
def nonBlank? : Option PlainValue → Option String
  | some (.string text) => if isBlank text then none else some text
  | _ => none

def policyEffect? : Option PlainValue → Option PolicyEffect
  | some (.string text) => POLICY_EFFECTS.find? fun effect => effect.text = text
  | _ => none

def parsePolicySource : Option PlainValue → Except ValidationError PolicySource
  | none => .error (validationError "policy"
      ("No policy given: add a `policy` block to the fixture file, or pass --policy <ref> / " ++
        "--dsl <path>."))
  | some raw =>
    match record? raw with
    | none => .error (validationError "policy" "`policy` must be an object.")
    | some fields =>
      let unexpected := unexpectedKeys fields POLICY_KEYS
      if unexpected.length > 0 then
        .error (validationError "policy"
          ("Unknown policy key(s): " ++ ", ".intercalate unexpected ++ "."))
      else
        match property fields "kind" with
        | some (.string "stored") =>
          match nonBlank? (property fields "ref") with
          | none => .error (validationError "policy.ref" "A stored policy needs a non-empty `ref`.")
          | some ref => .ok (.stored ref)
        | some (.string "draft") =>
          match nonBlank? (property fields "label"), nonBlank? (property fields "dsl") with
          | none, _ =>
            .error (validationError "policy.label" "A draft policy needs a non-empty `label`.")
          | _, none =>
            .error (validationError "policy.dsl" "A draft policy needs non-empty `dsl` source.")
          | some label, some dsl => .ok (.draft label dsl)
        | _ => .error (validationError "policy.kind"
            "`policy.kind` must be \"stored\" (a published policy ref) or \"draft\".")

/-- The attributes of an axis; one that is left out has none. -/
def axisBag (fields : AttributeBag) (axis : String) : Option AttributeBag :=
  match property fields axis with
  | none => some []
  | some bag => record? bag

/-- The errors of the axes. -/
def axisErrors (fields : AttributeBag) (field : String) : ValidationErrorAggregator :=
  CONTEXT_AXES.foldl (fun errors axis =>
    if (axisBag fields axis).isNone then
      errors.merge [(field ++ ".context." ++ axis,
        ["`" ++ axis ++ "` must be an object of attributes."])]
    else errors) .empty

def parseContext (raw : Option PlainValue) (field : String) :
    Except ValidationError AttributeContext :=
  match raw with
  | none => .ok emptyAttributeContext
  | some value =>
    match record? value with
    | none =>
      .error (validationError (field ++ ".context")
        "`context` must be an object of attribute bags.")
    | some fields =>
      let unexpected := unexpectedKeys fields CONTEXT_AXES
      if unexpected.length > 0 then
        .error (validationError (field ++ ".context")
          ("Unknown context axis/axes: " ++ ", ".intercalate unexpected ++ ". Expected any of " ++
            ", ".intercalate CONTEXT_AXES ++ "."))
      else if (axisErrors fields field).hasErrors then
        .error ((axisErrors fields field).toError "Invalid fixture context.")
      else
        .ok { subject := (axisBag fields "subject").getD []
              resource := (axisBag fields "resource").getD []
              action := (axisBag fields "action").getD []
              environment := (axisBag fields "environment").getD [] }

/-- What the loop over the fixtures has collected. -/
structure ParsedFixtures where
  errors : ValidationErrorAggregator
  parsed : List PolicyFixture

/-- The error of keys that no fixture has. -/
def unknownFieldErrors (index : ℕ) (fields : AttributeBag) : List (String × List String) :=
  let unexpected := unexpectedKeys fields FIXTURE_KEYS
  if unexpected.length > 0 then
    [(fixtureField index ++ ".unknown",
      ["Unknown field(s): " ++ ", ".intercalate unexpected ++ " — check for a typo."])]
  else []

/-- The error of a name that is no text or blank. -/
def nameErrors (index : ℕ) (name : Option String) : List (String × List String) :=
  if name.isNone then
    [(fixtureField index ++ ".name", ["`name` must be a non-empty string."])]
  else []

/-- The error of an effect that is none. -/
def expectedEffectErrors (index : ℕ) (expectedEffect : Option PolicyEffect) :
    List (String × List String) :=
  if expectedEffect.isNone then
    [(fixtureField index ++ ".expectedEffect",
      ["`expectedEffect` must be one of PERMIT, DENY, NOT_APPLICABLE (quoted)."])]
  else []

/-- One pass of the loop. -/
def parseFixture (state : ParsedFixtures) (index : ℕ) (entry : PlainValue) : ParsedFixtures :=
  match record? entry with
  | none =>
    { state with
      errors := state.errors.merge [(fixtureField index, ["Each fixture must be an object."])] }
  | some fields =>
    let errors := state.errors.merge (unknownFieldErrors index fields)
    let name := nonBlank? (property fields "name")
    let errors := errors.merge (nameErrors index name)
    let expectedEffect := policyEffect? (property fields "expectedEffect")
    let errors := errors.merge (expectedEffectErrors index expectedEffect)
    match parseContext (property fields "context") (fixtureField index) with
    | .error error => { state with errors := errors.merge error.fieldErrors }
    | .ok context =>
      match name, expectedEffect with
      | some name, some expectedEffect =>
        ⟨errors, state.parsed ++ [⟨name, expectedEffect, context⟩]⟩
      | _, _ => { state with errors := errors }

/-- The loop, from an index on. -/
def parseEntries (state : ParsedFixtures) : ℕ → List PlainValue → ParsedFixtures
  | _, [] => state
  | index, entry :: entries => parseEntries (parseFixture state index entry) (index + 1) entries

def parseFixtures : Option PlainValue → Except ValidationError (List PolicyFixture)
  | some (.array entries) =>
    let state := parseEntries ⟨.empty, []⟩ 0 entries
    if state.errors.hasErrors then .error (state.errors.toError "Invalid fixture file.")
    else .ok state.parsed
  | _ => .error (validationError "fixtures" "`fixtures` must be an array of fixture objects.")

/-- The policy of the file, unless another one overrides it. -/
def chosenPolicy (fields : AttributeBag) : Option PolicySource → Except ValidationError PolicySource
  | some policy => .ok policy
  | none => parsePolicySource (property fields "policy")

def parseFixtureSet (raw : PlainValue) (override : Option PolicySource) :
    Except ValidationError PolicyFixtureSet :=
  match record? raw with
  | none => .error (validationError "fixtures" "The fixture file must contain a JSON object.")
  | some fields =>
    let unexpected := unexpectedKeys fields FIXTURE_FILE_KEYS
    if unexpected.length > 0 then
      .error (validationError "fixtures" ("Unknown top-level key(s): " ++
        ", ".intercalate unexpected ++ ". Expected " ++ " and ".intercalate FIXTURE_FILE_KEYS ++
          "."))
    else do
      let policy ← chosenPolicy fields override
      let fixtures ← parseFixtures (property fields "fixtures")
      return ⟨policy, fixtures⟩

/-! ## What a document denotes -/

/-- The object has no other keys. -/
def HasOnly (fields : AttributeBag) (allowed : List String) : Prop :=
  ∀ entry ∈ fields, entry.1 ∈ allowed

/-- The property is a text with something in it. -/
def HasText (fields : AttributeBag) (key text : String) : Prop :=
  property fields key = some (.string text) ∧ isBlank text = false

/-- A policy block. -/
inductive DenotesPolicy : PlainValue → PolicySource → Prop
  | stored {fields : AttributeBag} {ref : String} (hkeys : HasOnly fields POLICY_KEYS)
      (hkind : property fields "kind" = some (.string "stored")) (href : HasText fields "ref" ref) :
      DenotesPolicy (.object fields) (.stored ref)
  | draft {fields : AttributeBag} {label dsl : String} (hkeys : HasOnly fields POLICY_KEYS)
      (hkind : property fields "kind" = some (.string "draft"))
      (hlabel : HasText fields "label" label) (hdsl : HasText fields "dsl" dsl) :
      DenotesPolicy (.object fields) (.draft label dsl)

/-- The property is an object of attributes, or left out when there are none. -/
def DenotesBag (fields : AttributeBag) (axis : String) (bag : AttributeBag) : Prop :=
  property fields axis = some (.object bag) ∨ property fields axis = none ∧ bag = []

/-- The contexts of a fixture; one that is left out has no attributes. -/
inductive DenotesContext : Option PlainValue → AttributeContext → Prop
  | omitted : DenotesContext none emptyAttributeContext
  | given {fields : AttributeBag} {context : AttributeContext}
      (hkeys : HasOnly fields CONTEXT_AXES) (hsubject : DenotesBag fields "subject" context.subject)
      (hresource : DenotesBag fields "resource" context.resource)
      (haction : DenotesBag fields "action" context.action)
      (henvironment : DenotesBag fields "environment" context.environment) :
      DenotesContext (some (.object fields)) context

/-- A fixture. -/
inductive DenotesFixture : PlainValue → PolicyFixture → Prop
  | mk {fields : AttributeBag} {fixture : PolicyFixture} (hkeys : HasOnly fields FIXTURE_KEYS)
      (hname : HasText fields "name" fixture.name)
      (heffect : property fields "expectedEffect" = some (.string fixture.expectedEffect.text))
      (hcontext : DenotesContext (property fields "context") fixture.context) :
      DenotesFixture (.object fields) fixture

/-- A fixture file; the policy is the one that overrides it, or that of the file. -/
inductive DenotesFixtureSet (override : Option PolicySource) :
    PlainValue → PolicyFixtureSet → Prop
  | mk {fields : AttributeBag} {entries : List PlainValue} {fixtureSet : PolicyFixtureSet}
      (hkeys : HasOnly fields FIXTURE_FILE_KEYS)
      (hpolicy : override = some fixtureSet.policy ∨
        override = none ∧ ∃ raw, property fields "policy" = some raw ∧
          DenotesPolicy raw fixtureSet.policy)
      (hentries : property fields "fixtures" = some (.array entries))
      (hfixtures : List.Forall₂ DenotesFixture entries fixtureSet.fixtures) :
      DenotesFixtureSet override (.object fields) fixtureSet

/-! ## Values -/

section Values

variable {fields : AttributeBag} {allowed : List String} {key text axis field : String}
  {bag : AttributeBag} {value : Option PlainValue}

theorem record?_eq_some_iff {raw : PlainValue} :
    record? raw = some fields ↔ raw = .object fields := by
  cases raw <;> simp [record?]

theorem length_unexpectedKeys_eq_zero_iff :
    (unexpectedKeys fields allowed).length = 0 ↔ HasOnly fields allowed := by
  rw [List.length_eq_zero_iff, unexpectedKeys, List.filter_eq_nil_iff]
  simp [HasOnly]

theorem nonBlank?_eq_some_iff : nonBlank? (property fields key) = some text ↔
    HasText fields key text := by
  unfold nonBlank? HasText
  split
  · rename_i other hother
    rw [hother]
    cases hblank : isBlank other with
    | true =>
      simp only [if_true, reduceCtorEq, Option.some.injEq, string.injEq, false_iff, not_and,
        Bool.not_eq_false]
      rintro rfl
      exact hblank
    | false =>
      simp only [Bool.false_eq_true, if_false, Option.some.injEq, string.injEq]
      constructor
      · rintro rfl
        exact ⟨rfl, hblank⟩
      · exact fun h => h.1
  · rename_i hno
    simp only [reduceCtorEq, false_iff, not_and]
    exact fun h => absurd h (hno text)

theorem policyEffect?_eq_some_iff {effect : PolicyEffect} :
    policyEffect? value = some effect ↔ value = some (.string effect.text) := by
  unfold policyEffect?
  split
  · rename_i text
    simp only [Option.some.injEq, string.injEq]
    constructor
    · intro h
      exact (by simpa using List.find?_some h : effect.text = text).symm
    · rintro rfl
      cases effect <;> rfl
  · rename_i hno
    simp only [reduceCtorEq, false_iff]
    exact hno effect.text

theorem axisBag_eq_some_iff : axisBag fields axis = some bag ↔ DenotesBag fields axis bag := by
  unfold axisBag DenotesBag
  cases property fields axis with
  | none => simp [eq_comm]
  | some raw => simp [record?_eq_some_iff]

/-- A policy block is parsed as what it denotes. -/
theorem parsePolicySource_eq_ok_iff {policy : PolicySource} :
    parsePolicySource value = .ok policy ↔ ∃ raw, value = some raw ∧ DenotesPolicy raw policy := by
  constructor
  · intro h
    unfold parsePolicySource at h
    split at h
    · cases h
    · rename_i raw
      refine ⟨raw, rfl, ?_⟩
      split at h
      · cases h
      · rename_i fields hfields
        rw [record?_eq_some_iff.mp hfields]
        dsimp only at h
        split at h
        · cases h
        · rename_i hunexpected
          have hkeys := length_unexpectedKeys_eq_zero_iff.mp (Nat.eq_zero_of_not_pos hunexpected)
          split at h
          · rename_i hkind
            split at h
            · cases h
            · rename_i ref href
              cases h
              exact .stored hkeys hkind (nonBlank?_eq_some_iff.mp href)
          · rename_i hkind
            split at h
            · cases h
            · cases h
            · rename_i label dsl hlabel hdsl
              cases h
              exact .draft hkeys hkind (nonBlank?_eq_some_iff.mp hlabel)
                (nonBlank?_eq_some_iff.mp hdsl)
          · cases h
  · rintro ⟨raw, rfl, hraw⟩
    cases hraw with
    | stored hkeys hkind href =>
      rw [parsePolicySource, record?]
      simp only [length_unexpectedKeys_eq_zero_iff.mpr hkeys, lt_irrefl, if_false,
        hkind, nonBlank?_eq_some_iff.mpr href]
    | draft hkeys hkind hlabel hdsl =>
      rw [parsePolicySource, record?]
      simp only [length_unexpectedKeys_eq_zero_iff.mpr hkeys, lt_irrefl, if_false,
        hkind, nonBlank?_eq_some_iff.mpr hlabel, nonBlank?_eq_some_iff.mpr hdsl]

/-- What is merged for the axes. -/
theorem axisErrors_eq_merge : axisErrors fields field = ValidationErrorAggregator.empty.merge
    (CONTEXT_AXES.flatMap fun axis => if (axisBag fields axis).isNone then
      [(field ++ ".context." ++ axis, ["`" ++ axis ++ "` must be an object of attributes."])]
    else []) := by
  rw [axisErrors, ← ValidationErrorAggregator.foldl_merge]
  simp only [ValidationErrorAggregator.ite_merge]

/-- The axes have errors exactly if one of them is no object. -/
theorem hasErrors_axisErrors_iff : (axisErrors fields field).hasErrors = false ↔
    ∀ axis ∈ CONTEXT_AXES, (axisBag fields axis).isSome := by
  rw [axisErrors_eq_merge, ValidationErrorAggregator.hasErrors_merge,
    ValidationErrorAggregator.hasErrors_empty, Bool.false_or, Bool.not_eq_false',
    List.isEmpty_iff, List.flatMap_eq_nil_iff]
  refine forall₂_congr fun axis _ => ?_
  cases axisBag fields axis <;> simp

/-- A context is parsed as what it denotes. -/
theorem parseContext_eq_ok_iff {context : AttributeContext} :
    parseContext value field = .ok context ↔ DenotesContext value context := by
  constructor
  · intro h
    unfold parseContext at h
    split at h
    · cases h
      exact .omitted
    · rename_i raw
      split at h
      · cases h
      · rename_i fields hfields
        rw [record?_eq_some_iff.mp hfields]
        dsimp only at h
        split at h
        · cases h
        · rename_i hunexpected
          have hkeys := length_unexpectedKeys_eq_zero_iff.mp (Nat.eq_zero_of_not_pos hunexpected)
          split at h
          · cases h
          · rename_i herrors
            have hbags := hasErrors_axisErrors_iff.mp (Bool.not_eq_true _ ▸ herrors)
            have hbag : ∀ axis ∈ CONTEXT_AXES,
                DenotesBag fields axis ((axisBag fields axis).getD []) := by
              intro axis haxis
              obtain ⟨bag, hbag⟩ := Option.isSome_iff_exists.mp (hbags axis haxis)
              rw [hbag]
              exact axisBag_eq_some_iff.mp hbag
            cases h
            exact .given hkeys (hbag "subject" (by decide)) (hbag "resource" (by decide))
              (hbag "action" (by decide)) (hbag "environment" (by decide))
  · intro h
    cases h with
    | omitted => rfl
    | @given fields context hkeys hsubject hresource haction henvironment =>
      have hsubject := axisBag_eq_some_iff.mpr hsubject
      have hresource := axisBag_eq_some_iff.mpr hresource
      have haction := axisBag_eq_some_iff.mpr haction
      have henvironment := axisBag_eq_some_iff.mpr henvironment
      have herrors : (axisErrors fields field).hasErrors = false :=
        hasErrors_axisErrors_iff.mpr (by
          simp [CONTEXT_AXES, hsubject, hresource, haction, henvironment])
      rw [parseContext, record?]
      simp only [length_unexpectedKeys_eq_zero_iff.mpr hkeys, lt_irrefl, if_false,
        herrors, hsubject, hresource, haction, henvironment, Option.getD_some, Bool.false_eq_true]

end Values

/-! ## One fixture -/

section Fixture

variable {index : ℕ} {entry : PlainValue} {fixture : PolicyFixture}

/-- The errors of the context of a fixture. -/
def contextErrors (index : ℕ) (fields : AttributeBag) : List (String × List String) :=
  match parseContext (property fields "context") (fixtureField index) with
  | .error error => error.fieldErrors
  | .ok _ => []

/-- All that is wrong with an entry. -/
def problems (index : ℕ) (entry : PlainValue) : List (String × List String) :=
  match record? entry with
  | none => [(fixtureField index, ["Each fixture must be an object."])]
  | some fields =>
    unknownFieldErrors index fields ++ nameErrors index (nonBlank? (property fields "name")) ++
      expectedEffectErrors index (policyEffect? (property fields "expectedEffect")) ++
      contextErrors index fields

/-- One pass merges all that is wrong with the entry. -/
theorem errors_parseFixture (state : ParsedFixtures) (index : ℕ) (entry : PlainValue) :
    (parseFixture state index entry).errors = state.errors.merge (problems index entry) := by
  unfold parseFixture problems contextErrors
  split
  · rfl
  · simp only [← ValidationErrorAggregator.merge_merge]
    split
    · rfl
    · split
      · rfl
      · rfl

/-- The errors of a context that cannot be parsed are not empty. -/
theorem fieldErrors_ne_nil_of_parseContext {value : Option PlainValue} {field : String}
    {error : ValidationError} (h : parseContext value field = .error error) :
    error.fieldErrors ≠ [] := by
  unfold parseContext at h
  split at h
  · cases h
  · split at h
    · cases h
      simp [validationError]
    · dsimp only at h
      split at h
      · cases h
        simp [validationError]
      · split at h
        · rename_i herrors
          cases h
          exact ValidationErrorAggregator.hasErrors_iff.mp herrors
        · cases h

/-- An entry that denotes a fixture has no problems, and one pass adds the fixture. -/
theorem DenotesFixture.parse (h : DenotesFixture entry fixture) : problems index entry = [] ∧
    ∀ state, (parseFixture state index entry).parsed = state.parsed ++ [fixture] := by
  obtain ⟨hkeys, hname, heffect, hcontext⟩ := h
  have hname := nonBlank?_eq_some_iff.mpr hname
  have heffect := policyEffect?_eq_some_iff.mpr heffect
  have hcontext : parseContext _ (fixtureField index) = .ok fixture.context :=
    parseContext_eq_ok_iff.mpr hcontext
  constructor
  · rw [problems, record?]
    simp only [unknownFieldErrors, length_unexpectedKeys_eq_zero_iff.mpr hkeys, lt_irrefl,
      if_false, nameErrors, hname, Option.isNone_some, Bool.false_eq_true, expectedEffectErrors,
      heffect, contextErrors, hcontext, List.append_nil]
  · intro state
    rw [parseFixture, record?]
    simp only [hname, heffect, hcontext]

/-- An entry has no problems exactly if it denotes a fixture. -/
theorem problems_eq_nil_iff :
    problems index entry = [] ↔ ∃ fixture, DenotesFixture entry fixture := by
  constructor
  · intro h
    unfold problems at h
    split at h
    · cases h
    · rename_i fields hfields
      simp only [List.append_eq_nil_iff] at h
      obtain ⟨⟨⟨hunknown, hname⟩, heffect⟩, hcontext⟩ := h
      have hkeys : HasOnly fields FIXTURE_KEYS := by
        rw [← length_unexpectedKeys_eq_zero_iff]
        by_contra hne
        rw [unknownFieldErrors] at hunknown
        simp [Nat.pos_of_ne_zero hne] at hunknown
      obtain ⟨name, hname⟩ : ∃ name, nonBlank? (property fields "name") = some name := by
        rw [← Option.isSome_iff_exists, Option.isSome_iff_ne_none]
        intro hnone
        simp [nameErrors, hnone] at hname
      obtain ⟨effect, heffect⟩ :
          ∃ effect, policyEffect? (property fields "expectedEffect") = some effect := by
        rw [← Option.isSome_iff_exists, Option.isSome_iff_ne_none]
        intro hnone
        simp [expectedEffectErrors, hnone] at heffect
      cases hparsed : parseContext (property fields "context") (fixtureField index) with
      | error error =>
        rw [contextErrors, hparsed] at hcontext
        exact absurd hcontext (fieldErrors_ne_nil_of_parseContext hparsed)
      | ok context =>
        refine ⟨⟨name, effect, context⟩, ?_⟩
        rw [record?_eq_some_iff.mp hfields]
        exact ⟨hkeys, nonBlank?_eq_some_iff.mp hname, policyEffect?_eq_some_iff.mp heffect,
          parseContext_eq_ok_iff.mp hparsed⟩
  · rintro ⟨fixture, hfixture⟩
    exact hfixture.parse.1

/-- Whatever is wrong with a context is said under its field. -/
theorem mem_contextErrors {value : Option PlainValue} {field : String} {error : ValidationError}
    (h : parseContext value field = .error error) {problem : String × List String}
    (hproblem : problem ∈ error.fieldErrors) :
    (∃ suffix, problem.1 = field ++ suffix) ∧ problem.2 ≠ [] := by
  unfold parseContext at h
  split at h
  · cases h
  · split at h
    · cases h
      obtain rfl := List.mem_singleton.mp hproblem
      exact ⟨⟨_, rfl⟩, by simp⟩
    · rename_i fields _
      dsimp only at h
      split at h
      · cases h
        obtain rfl := List.mem_singleton.mp hproblem
        exact ⟨⟨_, rfl⟩, by simp⟩
      · split at h
        · cases h
          revert problem
          rw [ValidationErrorAggregator.toError, axisErrors_eq_merge]
          apply ValidationErrorAggregator.forall_mem_merge
          · exact fun field messages more hgood => ⟨hgood.1, by simp [hgood.2]⟩
          · exact fun entry hentry => (by cases hentry)
          · intro problem hproblem
            obtain ⟨axis, -, haxis⟩ := List.mem_flatMap.mp hproblem
            split at haxis
            · obtain rfl := List.mem_singleton.mp haxis
              exact ⟨⟨".context." ++ axis, by rw [String.append_assoc]⟩, by simp⟩
            · cases haxis
        · cases h

/-- Whatever is wrong with an entry is said under its index. -/
theorem mem_problems {problem : String × List String} (h : problem ∈ problems index entry) :
    (∃ suffix, problem.1 = fixtureField index ++ suffix) ∧ problem.2 ≠ [] := by
  unfold problems at h
  split at h
  · obtain rfl := List.mem_singleton.mp h
    exact ⟨⟨"", by simp⟩, by simp⟩
  · rename_i fields _
    simp only [List.mem_append] at h
    rcases h with ((hunknown | hname) | heffect) | hcontext
    · rw [unknownFieldErrors] at hunknown
      split at hunknown
      · obtain rfl := List.mem_singleton.mp hunknown
        exact ⟨⟨_, rfl⟩, by simp⟩
      · cases hunknown
    · rw [nameErrors] at hname
      split at hname
      · obtain rfl := List.mem_singleton.mp hname
        exact ⟨⟨_, rfl⟩, by simp⟩
      · cases hname
    · rw [expectedEffectErrors] at heffect
      split at heffect
      · obtain rfl := List.mem_singleton.mp heffect
        exact ⟨⟨_, rfl⟩, by simp⟩
      · cases heffect
    · rw [contextErrors] at hcontext
      split at hcontext
      · rename_i error herror
        exact mem_contextErrors herror hcontext
      · cases hcontext

end Fixture

/-! ## All fixtures -/

section Fixtures

variable {index : ℕ} {entries : List PlainValue} {fixtures : List PolicyFixture}

/-- All that is wrong with the entries from an index on. -/
def allProblems : ℕ → List PlainValue → List (String × List String)
  | _, [] => []
  | index, entry :: entries => problems index entry ++ allProblems (index + 1) entries

theorem errors_parseEntries (state : ParsedFixtures) (index : ℕ) (entries : List PlainValue) :
    (parseEntries state index entries).errors = state.errors.merge (allProblems index entries) := by
  induction entries generalizing state index with
  | nil => rfl
  | cons entry entries ih =>
    rw [parseEntries, ih, errors_parseFixture, ValidationErrorAggregator.merge_merge, allProblems]

/-- What is wrong with some entry is wrong with the entry at an index. -/
theorem mem_allProblems_iff {problem : String × List String} :
    problem ∈ allProblems index entries ↔
      ∃ (i : ℕ) (h : i < entries.length), problem ∈ problems (index + i) (entries[i]) := by
  induction entries generalizing index with
  | nil => simp [allProblems]
  | cons entry entries ih =>
    rw [allProblems, List.mem_append, ih]
    constructor
    · rintro (hfirst | ⟨i, hi, hlater⟩)
      · exact ⟨0, by simp, hfirst⟩
      · refine ⟨i + 1, by simpa using hi, ?_⟩
        rw [List.getElem_cons_succ, show index + (i + 1) = index + 1 + i by omega]
        exact hlater
    · rintro ⟨i, hi, hproblem⟩
      cases i with
      | zero => exact .inl hproblem
      | succ i =>
        refine .inr ⟨i, by simpa using hi, ?_⟩
        rw [List.getElem_cons_succ, show index + (i + 1) = index + 1 + i by omega] at hproblem
        exact hproblem

/-- Entries that denote fixtures have no problems, and the loop adds the fixtures. -/
theorem parseEntries_of_denotes (h : List.Forall₂ DenotesFixture entries fixtures) :
    allProblems index entries = [] ∧
      ∀ state, (parseEntries state index entries).parsed = state.parsed ++ fixtures := by
  induction h generalizing index with
  | nil => exact ⟨rfl, fun state => (List.append_nil _).symm⟩
  | cons hfixture _ ih =>
    refine ⟨by rw [allProblems, hfixture.parse.1, ih.1, List.append_nil], fun state => ?_⟩
    rw [parseEntries, ih.2, hfixture.parse.2, List.append_assoc, List.singleton_append]

/-- Entries without problems denote fixtures. -/
theorem exists_denotes_of_allProblems (h : allProblems index entries = []) :
    ∃ fixtures, List.Forall₂ DenotesFixture entries fixtures := by
  induction entries generalizing index with
  | nil => exact ⟨[], .nil⟩
  | cons entry entries ih =>
    rw [allProblems, List.append_eq_nil_iff, problems_eq_nil_iff] at h
    obtain ⟨⟨fixture, hfixture⟩, hrest⟩ := h
    obtain ⟨fixtures, hfixtures⟩ := ih hrest
    exact ⟨fixture :: fixtures, .cons hfixture hfixtures⟩

/-- The errors of the loop are what is wrong with the entries. -/
theorem hasErrors_parseEntries :
    (parseEntries ⟨.empty, []⟩ 0 entries).errors.hasErrors = false ↔
      allProblems 0 entries = [] := by
  rw [errors_parseEntries, ValidationErrorAggregator.hasErrors_merge]
  simp

/-- The fixtures are parsed as what they denote. -/
theorem parseFixtures_eq_ok_iff {value : Option PlainValue} :
    parseFixtures value = .ok fixtures ↔
      ∃ entries, value = some (.array entries) ∧ List.Forall₂ DenotesFixture entries fixtures := by
  constructor
  · intro h
    unfold parseFixtures at h
    split at h
    · rename_i entries
      dsimp only at h
      split at h
      · cases h
      · rename_i herrors
        rw [Bool.not_eq_true, hasErrors_parseEntries] at herrors
        obtain ⟨others, hothers⟩ := exists_denotes_of_allProblems herrors
        rw [(parseEntries_of_denotes hothers).2] at h
        cases h
        exact ⟨entries, rfl, hothers⟩
    · cases h
  · rintro ⟨entries, rfl, hfixtures⟩
    obtain ⟨hnone, hparsed⟩ := parseEntries_of_denotes hfixtures
    rw [parseFixtures]
    rw [hasErrors_parseEntries.mpr hnone, hparsed]
    rfl

/-- The document is parsed exactly as what it denotes. -/
theorem parseFixtureSet_eq_ok_iff {raw : PlainValue} {override : Option PolicySource}
    {fixtureSet : PolicyFixtureSet} : parseFixtureSet raw override = .ok fixtureSet ↔
      DenotesFixtureSet override raw fixtureSet := by
  constructor
  · intro h
    unfold parseFixtureSet at h
    split at h
    · cases h
    · rename_i fields hfields
      rw [record?_eq_some_iff.mp hfields]
      dsimp only at h
      split at h
      · cases h
      · rename_i hunexpected
        have hkeys := length_unexpectedKeys_eq_zero_iff.mp (Nat.eq_zero_of_not_pos hunexpected)
        cases hpolicy : chosenPolicy fields override with
        | error error =>
          rw [hpolicy] at h
          cases h
        | ok policy =>
          cases hfixtures : parseFixtures (property fields "fixtures") with
          | error error =>
            rw [hpolicy, hfixtures] at h
            cases h
          | ok fixtures =>
            rw [hpolicy, hfixtures] at h
            cases h
            obtain ⟨entries, hentries, hall⟩ := parseFixtures_eq_ok_iff.mp hfixtures
            refine ⟨hkeys, ?_, hentries, hall⟩
            unfold chosenPolicy at hpolicy
            split at hpolicy
            · cases hpolicy
              exact .inl rfl
            · obtain ⟨raw, hraw, hdenotes⟩ := parsePolicySource_eq_ok_iff.mp hpolicy
              exact .inr ⟨rfl, raw, hraw, hdenotes⟩
  · rintro ⟨hkeys, hpolicy, hentries, hfixtures⟩
    rename_i fields entries
    have hchosen : chosenPolicy fields override = .ok fixtureSet.policy := by
      rcases hpolicy with rfl | ⟨rfl, raw, hraw, hdenotes⟩
      · rfl
      · exact parsePolicySource_eq_ok_iff.mpr ⟨raw, hraw, hdenotes⟩
    have hparsed := parseFixtures_eq_ok_iff.mpr ⟨entries, hentries, hfixtures⟩
    rw [parseFixtureSet, record?]
    dsimp only
    rw [if_neg (by simp [length_unexpectedKeys_eq_zero_iff.mpr hkeys]), hchosen, hparsed]
    rfl

/-! ## What is reported -/

/-- The field of a fixture tells its index. -/
theorem eq_of_fixtureField {i j : ℕ} {suffix other : String}
    (h : fixtureField i ++ suffix = fixtureField j ++ other) : i = j := by
  have hlists := congrArg String.toList h
  simp only [fixtureField, String.toList_append, List.append_assoc] at hlists
  have hrest := List.append_cancel_left hlists
  have hends : ∀ n : ℕ, ∀ rest : List Char, (Nat.repr n).toList ++ ("]".toList ++ rest) =
      (Nat.repr n).toList ++ [']'] ++ rest := fun n rest => by
    rw [List.append_assoc]
    rfl
  rw [hends, hends] at hrest
  exact (selfDelimiting_repr rfl hrest).1

/-- When the fixtures are refused, an entry is reported under its index exactly if it is malformed;
and nothing else is reported. -/
theorem reports_exactly_malformed {error : ValidationError}
    (h : parseFixtures (some (.array entries)) = .error error) :
    (∀ (i : ℕ) (hi : i < entries.length),
      (∃ suffix, error.errorsOf (fixtureField i ++ suffix) ≠ []) ↔
        ¬∃ fixture, DenotesFixture (entries[i]) fixture) ∧
    ∀ field, error.errorsOf field ≠ [] →
      ∃ i < entries.length, ∃ suffix, field = fixtureField i ++ suffix := by
  have hreported : ∀ field, error.errorsOf field ≠ [] ↔
      ∃ problem ∈ allProblems 0 entries, problem.1 = field ∧ problem.2 ≠ [] := by
    intro field
    have herrors := errors_parseEntries ⟨.empty, []⟩ 0 entries
    unfold parseFixtures at h
    dsimp only at h
    split at h
    · cases h
      rw [ValidationErrorAggregator.errorsOf_toError, herrors,
        ValidationErrorAggregator.messages_merge]
      simp [ValidationErrorAggregator.messagesIn]
    · cases h
  refine ⟨fun i hi => ?_, fun field hfield => ?_⟩
  · rw [← @problems_eq_nil_iff i]
    constructor
    · rintro ⟨suffix, hsuffix⟩ hnone
      obtain ⟨problem, hproblem, hfield, -⟩ := (hreported _).mp hsuffix
      obtain ⟨j, hj, hmem⟩ := mem_allProblems_iff.mp hproblem
      obtain ⟨⟨other, hother⟩, -⟩ := mem_problems hmem
      have hij : 0 + j = i := eq_of_fixtureField (hother.symm.trans hfield)
      have hsame : j = i := by omega
      subst hsame
      rw [Nat.zero_add, hnone] at hmem
      cases hmem
    · intro hsome
      obtain ⟨problem, hproblem⟩ := List.exists_mem_of_ne_nil _ hsome
      obtain ⟨⟨suffix, hsuffix⟩, hmessages⟩ := mem_problems hproblem
      refine ⟨suffix, (hreported _).mpr ⟨problem, ?_, hsuffix, hmessages⟩⟩
      exact mem_allProblems_iff.mpr ⟨i, hi, by rwa [Nat.zero_add]⟩
  · obtain ⟨problem, hproblem, rfl, -⟩ := (hreported field).mp hfield
    obtain ⟨j, hj, hmem⟩ := mem_allProblems_iff.mp hproblem
    obtain ⟨hsuffix, -⟩ := mem_problems hmem
    rw [Nat.zero_add] at hsuffix
    exact ⟨j, hj, hsuffix⟩

end Fixtures

/-- A fixture, one without a name and with a misspelled effect, and a number. -/
def sampleEntries : List PlainValue :=
  [.object [("name", .string "owner"), ("expectedEffect", .string "PERMIT")],
    .object [("name", .string " "), ("expectedEffect", .string "PERMT")], .number (.finite 3)]

/-- The second and the third are reported. -/
theorem reports_exactly_malformed_sample :
    ∃ error, parseFixtures (some (.array sampleEntries)) = .error error ∧
      error.fieldErrors.map Prod.fst =
        ["fixtures[1].name", "fixtures[1].expectedEffect", "fixtures[2]"] ∧
      ∀ (i : ℕ) (hi : i < sampleEntries.length),
        (∃ suffix, error.errorsOf (fixtureField i ++ suffix) ≠ []) ↔
          ¬∃ fixture, DenotesFixture (sampleEntries[i]) fixture :=
  ⟨_, rfl, by decide +kernel, (reports_exactly_malformed rfl).1⟩

end Verixa.Authorization.Decisions
