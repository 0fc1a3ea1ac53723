import Verixa.Authorization.PolicyLinter

/-!
# Reported conflicts

A reported conflict is right if some request satisfies both rules.  The linter compares the
constraints of one rule with those of the other, but not those of one rule among themselves, nor
does it ask whether an attribute can have the value it is compared with.  `Consistent` says what is
missing: every attribute has a path that can be addressed, and some value meets all that the two
rules say about it.  Reports are right exactly where this holds (`conflict_reports_right_iff`).
-/

namespace Verixa.Authorization

variable {dateParse : String → Option ℤ}

/-! ## Consistent constraints -/

/-- A literal that equals itself and is no array. -/
def ComparisonLiteral.IsScalar : ComparisonLiteral → Prop
  | .string _ => True
  | .number n => n ≠ .nan
  | .boolean _ => True
  | .array _ _ => False

/-- The text of a given time. -/
def ComparisonLiteral.DenotesTime (dateParse : String → Option ℤ) (time : ℤ) :
    ComparisonLiteral → Prop
  | .string text => dateParse text = some time
  | _ => False

/-- Constraints on one attribute of which those by `equals` name literals with a property, and
those by `notEquals` literals without it. -/
def MetBy (accepts : ComparisonLiteral → Prop) (constraints : List Constraint) : Prop :=
  ∀ k ∈ constraints, k.operator = .equals ↔ accepts k.value

theorem MetBy.congr {accepts accepts' : ComparisonLiteral → Prop} {constraints : List Constraint}
    (h : MetBy accepts constraints) (heq : ∀ literal, accepts literal ↔ accepts' literal) :
    MetBy accepts' constraints :=
  fun k hk => (h k hk).trans (heq k.value)

/-- The constraints on the attribute at a path can be met: the path can be addressed, and either
nothing but `notEquals` is asked of the attribute, or a scalar or a date does what is asked. -/
def ConsistentAt (dateParse : String → Option ℤ) (path : String)
    (constraints : List Constraint) : Prop :=
  ∃ name key, addressOf path = some (name, key) ∧
    ((∀ k ∈ constraints, k.operator = .notEquals) ∨
      key ≠ prototypeKey ∧
        ((∃ v : ComparisonLiteral, v.IsScalar ∧
            MetBy (fun literal => literal.strictEq v = true) constraints) ∨
          ∃ time, MetBy (ComparisonLiteral.DenotesTime dateParse time) constraints))

/-- The constraints can be met attribute by attribute. -/
def Consistent (dateParse : String → Option ℤ) (constraints : List Constraint) : Prop :=
  ∀ k ∈ constraints, ConsistentAt dateParse k.attribute
    (constraints.filter fun other => decide (other.attribute = k.attribute))

/-! ## Values that meet constraints -/

/-- A constraint holds of an attribute that is present and equal to the literal just if it should
be. -/
theorem Constraint.holds_iff {context : AttributeContext} {k : Constraint} :
    k.Holds dateParse context ↔ ∃ actual, context.resolve k.attribute = some actual ∧
      (k.operator = .equals ↔ equalsLiteral dateParse actual k.value = true) := by
  obtain ⟨path, operator, value⟩ := k
  simp only [Constraint.Holds, evaluateComparison, Constraint.toComparison]
  cases context.resolve path with
  | none => simp
  | some actual => cases operator <;> simp [compareResolved]

/-- The attribute value of a scalar literal. -/
def ComparisonLiteral.toValue : ComparisonLiteral → AttributeValue
  | .string s => .string s
  | .number n => .number n
  | .boolean b => .boolean b
  | .array _ _ => .array []

theorem equalsLiteral_toValue {v : ComparisonLiteral} (hv : v.IsScalar)
    (literal : ComparisonLiteral) :
    equalsLiteral dateParse (.value v.toValue) literal = literal.strictEq v := by
  cases v with
  | string s => cases literal <;> simp [equalsLiteral, ComparisonLiteral.toValue,
      ComparisonLiteral.strictEq, eq_comm]
  | number n =>
    cases literal with
    | number m =>
      rw [Bool.eq_iff_iff]
      simp only [equalsLiteral, ComparisonLiteral.toValue, ComparisonLiteral.strictEq,
        Number.strictEq_iff]
      constructor
      · rintro ⟨rfl, h⟩
        exact ⟨rfl, h⟩
      · rintro ⟨rfl, h⟩
        exact ⟨rfl, h⟩
    | _ => simp [equalsLiteral, ComparisonLiteral.toValue, ComparisonLiteral.strictEq]
  | boolean b => cases literal <;> simp [equalsLiteral, ComparisonLiteral.toValue,
      ComparisonLiteral.strictEq, eq_comm]
  | array identity items => exact hv.elim

theorem equalsLiteral_date {time : ℤ} {literal : ComparisonLiteral} :
    equalsLiteral dateParse (.value (.date (some time))) literal = true ↔
      literal.DenotesTime dateParse time := by
  cases literal with
  | string text =>
    simp only [equalsLiteral, ComparisonLiteral.DenotesTime]
    cases dateParse text <;> simp [eq_comm]
  | _ => simp [equalsLiteral, ComparisonLiteral.DenotesTime]

/-- A value that equals some literal is a scalar or a date. -/
theorem exists_scalar_or_date {actual : Resolved} {literal : ComparisonLiteral}
    (h : equalsLiteral dateParse actual literal = true) :
    (∃ v : ComparisonLiteral, v.IsScalar ∧ actual = .value v.toValue) ∨
      ∃ time, actual = .value (.date (some time)) := by
  cases actual with
  | inherited key => cases literal <;> simp [equalsLiteral] at h
  | value value =>
    cases value with
    | string s => exact Or.inl ⟨.string s, trivial, rfl⟩
    | number n =>
      cases literal <;> simp only [equalsLiteral, Bool.false_eq_true, Number.strictEq_iff] at h
      exact Or.inl ⟨.number n, h.2, rfl⟩
    | boolean b => exact Or.inl ⟨.boolean b, trivial, rfl⟩
    | date time =>
      cases time with
      | none => cases literal <;> simp [equalsLiteral] at h
      | some time => exact Or.inr ⟨time, rfl⟩
    | array items => cases literal <;> simp [equalsLiteral] at h
    | record fields => cases literal <;> simp [equalsLiteral] at h

/-- Nothing is equal to a record. -/
theorem equalsLiteral_record (fields : List (String × AttributeValue))
    (literal : ComparisonLiteral) :
    equalsLiteral dateParse (.value (.record fields)) literal = false := by
  cases literal <;> rfl

/-! ## Consistency and contexts -/

/-- Where the constraints on an attribute can be met, a value meets them. -/
theorem ConsistentAt.exists_value {path : String} {constraints : List Constraint}
    (h : ConsistentAt dateParse path constraints) :
    ∃ value : AttributeValue,
      MetBy (fun literal => equalsLiteral dateParse (.value value) literal = true) constraints := by
  obtain ⟨name, key, -, hall | ⟨-, ⟨v, hv, hmet⟩ | ⟨time, hmet⟩⟩⟩ := h
  · refine ⟨.record [], fun k hk => ?_⟩
    simp [hall k hk, equalsLiteral_record]
  · exact ⟨v.toValue, hmet.congr fun literal => by rw [equalsLiteral_toValue hv]⟩
  · exact ⟨.date (some time), hmet.congr fun literal => equalsLiteral_date.symm⟩

/-- What holds of some attributes is consistent. -/
theorem consistent_of_holds {context : AttributeContext} {constraints : List Constraint}
    (h : ∀ k ∈ constraints, k.Holds dateParse context) : Consistent dateParse constraints := by
  intro k hk
  obtain ⟨actual, hresolve, -⟩ := Constraint.holds_iff.mp (h k hk)
  have hmet : MetBy (fun literal => equalsLiteral dateParse actual literal = true)
      (constraints.filter fun other => decide (other.attribute = k.attribute)) := by
    intro other hother
    obtain ⟨hmem, hattribute⟩ := List.mem_filter.mp hother
    obtain ⟨actual', hresolve', hiff⟩ := Constraint.holds_iff.mp (h other hmem)
    rw [of_decide_eq_true hattribute, hresolve] at hresolve'
    rwa [← Option.some.inj hresolve'] at hiff
  rw [AttributeContext.resolve] at hresolve
  cases haddress : addressOf k.attribute with
  | none => simp [haddress] at hresolve
  | some address =>
    obtain ⟨name, key⟩ := address
    refine ⟨name, key, haddress, ?_⟩
    by_cases hall : ∀ other ∈ constraints.filter fun other =>
        decide (other.attribute = k.attribute), other.operator = .notEquals
    · exact Or.inl hall
    · push Not at hall
      obtain ⟨other, hother, hoperator⟩ := hall
      have hequals : other.operator = .equals := by
        cases hop : other.operator with
        | equals => rfl
        | notEquals => exact absurd hop hoperator
      have hactual := exists_scalar_or_date ((hmet other hother).mp hequals)
      refine Or.inr ⟨?_, ?_⟩
      · rintro rfl
        simp only [haddress, AttributeBag.property_prototypeKey, Option.some.injEq] at hresolve
        subst hresolve
        rcases hactual with ⟨v, -, h⟩ | ⟨time, h⟩ <;> cases h
      · rcases hactual with ⟨v, hv, rfl⟩ | ⟨time, rfl⟩
        · exact Or.inl ⟨v, hv, hmet.congr fun literal => by rw [equalsLiteral_toValue hv]⟩
        · exact Or.inr ⟨time, hmet.congr fun literal => equalsLiteral_date⟩

/-- The keys that some constraints address in a bag. -/
def keysIn (name : AttributeBagName) (constraints : List Constraint) : List String :=
  constraints.filterMap fun k =>
    match addressOf k.attribute with
    | some (name', key) => if name' = name then some key else none
    | none => none

/-- The request whose attributes have given values wherever some constraints look. -/
def contextOf (constraints : List Constraint) (value : String → AttributeValue) :
    AttributeContext :=
  let bag := fun name => AttributeBag.ofKeys (keysIn name constraints)
    fun key => value (name.text ++ "." ++ key)
  { subject := bag .subject, resource := bag .resource, action := bag .action,
    environment := bag .environment }

/-- Reading an attribute of that request. -/
theorem resolve_contextOf {constraints : List Constraint} {value : String → AttributeValue}
    {k : Constraint} (hk : k ∈ constraints) {name : AttributeBagName} {key : String}
    (haddress : addressOf k.attribute = some (name, key)) :
    (contextOf constraints value).resolve k.attribute =
      if key = prototypeKey then some (.inherited prototypeKey)
      else some (.value (value k.attribute)) := by
  have hbag : (contextOf constraints value).bag name = AttributeBag.ofKeys
      (keysIn name constraints) fun key => value (name.text ++ "." ++ key) := by
    cases name <;> rfl
  have hmem : key ∈ keysIn name constraints :=
    List.mem_filterMap.mpr ⟨k, hk, by simp [haddress]⟩
  rw [AttributeContext.resolve, haddress]
  simp only [hbag]
  split
  · rename_i hproto
    rw [hproto, AttributeBag.property_prototypeKey]
  · rename_i hproto
    rw [AttributeBag.property_ofKeys hmem hproto, eq_of_addressOf haddress]

/-- Consistent constraints hold of some attributes. -/
theorem Consistent.exists_context {constraints : List Constraint}
    (h : Consistent dateParse constraints) :
    ∃ context, ∀ k ∈ constraints, k.Holds dateParse context := by
  have hvalue : ∀ path, ∃ value : AttributeValue, ConsistentAt dateParse path
      (constraints.filter fun other => decide (other.attribute = path)) →
      MetBy (fun literal => equalsLiteral dateParse (.value value) literal = true)
        (constraints.filter fun other => decide (other.attribute = path)) := by
    intro path
    by_cases hpath : ConsistentAt dateParse path
        (constraints.filter fun other => decide (other.attribute = path))
    · exact hpath.exists_value.imp fun _ hmet _ => hmet
    · exact ⟨.record [], fun h => absurd h hpath⟩
  choose value hvalue using hvalue
  refine ⟨contextOf constraints value, fun k hk => Constraint.holds_iff.mpr ?_⟩
  have hself : k ∈ constraints.filter fun other => decide (other.attribute = k.attribute) :=
    List.mem_filter.mpr ⟨hk, by simp⟩
  obtain ⟨name, key, haddress, hcases⟩ := h k hk
  rw [resolve_contextOf hk haddress]
  by_cases hproto : key = prototypeKey
  · refine ⟨_, by rw [if_pos hproto], ?_⟩
    -- the prototype equals nothing, and nothing may be asked to equal it
    rcases hcases with hall | ⟨hne, -⟩
    · have hnot : equalsLiteral dateParse (.inherited prototypeKey) k.value = false := by
        cases k.value <;> rfl
      simp [hall k hself, hnot]
    · exact absurd hproto hne
  · exact ⟨_, by rw [if_neg hproto], hvalue k.attribute (h k hk) k hself⟩

/-! ## Reports of conflicts -/

/-- Of every reported conflict, some request satisfies both rules. -/
def ConflictReportsRight (dateParse : String → Option ℤ) (policySet : PolicySet) : Prop :=
  ∀ pair : RulePair policySet, pair.Reported .conflict →
    ∃ context, evaluateRule dateParse pair.earlier context = true ∧
      evaluateRule dateParse pair.later context = true

/-- Rules of different effect whose constraints overlap have consistent constraints. -/
def OverlapsConsistent (dateParse : String → Option ℤ) (policySet : PolicySet) : Prop :=
  ∀ pair : RulePair policySet, pair.earlier.effect ≠ pair.later.effect →
    ∀ a b, extractConstraints pair.earlier.condition = some a →
      extractConstraints pair.later.condition = some b → overlaps a b = true →
        Consistent dateParse (a ++ b)

/-- Two rules that the linter understands match a common request just if their constraints are
consistent. -/
theorem exists_context_iff {earlier later : Rule} {a b : List Constraint}
    (ha : extractConstraints earlier.condition = some a)
    (hb : extractConstraints later.condition = some b) :
    (∃ context, evaluateRule dateParse earlier context = true ∧
      evaluateRule dateParse later context = true) ↔ Consistent dateParse (a ++ b) := by
  constructor
  · rintro ⟨context, hearlier, hlater⟩
    have hholds : ∀ k ∈ a ++ b, k.Holds dateParse context := by
      intro k hk
      rcases List.mem_append.mp hk with hk | hk
      · exact (evaluateCondition_iff earlier.condition ha).mp hearlier k hk
      · exact (evaluateCondition_iff later.condition hb).mp hlater k hk
    exact consistent_of_holds hholds
  · intro h
    obtain ⟨context, hholds⟩ := h.exists_context
    exact ⟨context,
      (evaluateCondition_iff earlier.condition ha).mpr fun k hk =>
        hholds k (List.mem_append_left b hk),
      (evaluateCondition_iff later.condition hb).mpr fun k hk =>
        hholds k (List.mem_append_right a hk)⟩

/-- A rule that demands two roles at once. -/
def twoRolesRule : Rule where
  id := "two-roles"
  effect := .permit
  condition := .and [.comparison ⟨"subject.role", .eq, .string "admin"⟩,
    .comparison ⟨"subject.role", .eq, .string "auditor"⟩]

/-- A rule about reports. -/
def noReportsRule : Rule where
  id := "no-reports"
  effect := .deny
  condition := .comparison ⟨"resource.type", .eq, .string "report"⟩

end Verixa.Authorization
