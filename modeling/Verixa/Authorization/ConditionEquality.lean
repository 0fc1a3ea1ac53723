import Verixa.Authorization.PolicyStorage

/-!
# Equal conditions

`Condition.equals` compares two trees node by node.  On trees without a literal that is no number it
is an equivalence relation, and trees that it declares equal evaluate alike in every context
(`equals_sound`): the evaluator tells literals apart by the same comparisons, and does not look at
the identity of an array.
-/

namespace Verixa.Authorization

/-! ## Literals -/

namespace LiteralItem

/-- The item is not `NaN`. -/
def IsNumeral : LiteralItem → Prop
  | .string _ => True
  | .number value => value ≠ .nan

/-- Equal items are the same, and none of them is `NaN`. -/
theorem strictEq_iff {a b : LiteralItem} : a.strictEq b = true ↔ a = b ∧ a.IsNumeral := by
  cases a <;> cases b <;> simp [strictEq, IsNumeral, Number.strictEq_iff]

/-- So are equal arrays of items. -/
theorem sameItems_iff {items others : List LiteralItem} :
    sameItems items others = true ↔ items = others ∧ ∀ item ∈ items, item.IsNumeral := by
  induction items generalizing others with
  | nil => cases others <;> simp [sameItems]
  | cons item items ih =>
    cases others with
    | nil => simp [sameItems]
    | cons other others =>
      rw [sameItems, Bool.and_eq_true, ih, strictEq_iff, List.forall_mem_cons, List.cons.injEq]
      tauto

end LiteralItem

namespace ComparisonLiteral

/-- The literal is not `NaN`, and holds none. -/
def NanFree : ComparisonLiteral → Prop
  | .number value => value ≠ .nan
  | .array _ items => ∀ item ∈ items, item.IsNumeral
  | _ => True

/-- The literal with another identity, if it is an array. -/
def withIdentity (identity : ℕ) : ComparisonLiteral → ComparisonLiteral
  | .array _ items => .array identity items
  | literal => literal

/-- Literals have the same value if they differ at most in their identity, and none is `NaN`. -/
theorem sameValue_iff {a b : ComparisonLiteral} :
    a.sameValue b = true ↔ a.withIdentity 0 = b.withIdentity 0 ∧ a.NanFree := by
  cases a <;> cases b <;>
    simp [sameValue, withIdentity, NanFree, Number.strictEq_iff, LiteralItem.sameItems_iff]

end ComparisonLiteral

/-- An order compares no array. -/
theorem compareOrder_array (order : Number → Number → Bool) (actual : Resolved) (identity : ℕ)
    (items : List LiteralItem) : compareOrder order actual (.array identity items) = false := by
  unfold compareOrder
  cases orderableValueOf actual <;> rfl

/-- A comparison does not depend on the identity of its literal. -/
theorem compareResolved_withIdentity (dateParse : String → Option ℤ) (actual : Resolved)
    (operator : ComparisonOperator) (literal : ComparisonLiteral) (identity : ℕ) :
    compareResolved dateParse actual operator (literal.withIdentity identity) =
      compareResolved dateParse actual operator literal := by
  cases literal with
  | string value => rfl
  | number value => rfl
  | boolean value => rfl
  | array own items =>
    cases operator <;> simp [compareResolved, ComparisonLiteral.withIdentity, equalsLiteral,
      compareOrder_array]

/-! ## Trees -/

namespace Condition

mutual

/-- The tree with every array under one identity. -/
def shape : Condition → Condition
  | .always => .always
  | .comparison leaf => .comparison { leaf with value := leaf.value.withIdentity 0 }
  | .and operands => .and (shapes operands)
  | .or operands => .or (shapes operands)
  | .not operand => .not operand.shape

/-- The operands with every array under one identity. -/
def shapes : List Condition → List Condition
  | [] => []
  | operand :: operands => operand.shape :: shapes operands

end

mutual

/-- No literal of the tree is `NaN`. -/
def NanFree : Condition → Prop
  | .always => True
  | .comparison leaf => leaf.value.NanFree
  | .and operands => NanFreeOperands operands
  | .or operands => NanFreeOperands operands
  | .not operand => operand.NanFree

/-- No literal of the operands is `NaN`. -/
def NanFreeOperands : List Condition → Prop
  | [] => True
  | operand :: operands => operand.NanFree ∧ NanFreeOperands operands

end

mutual

/-- Trees are equal if they have the same shape, and no literal is `NaN`. -/
theorem equals_iff : ∀ a b : Condition, a.equals b = true ↔ a.shape = b.shape ∧ a.NanFree
  | .always, b => by cases b <;> simp [equals, shape, NanFree]
  | .comparison leaf, b => by
    cases b with
    | comparison other =>
      obtain ⟨ownPath, operator, value⟩ := leaf
      obtain ⟨otherPath, otherOperator, otherValue⟩ := other
      simp only [equals, shape, NanFree, Bool.if_false_left, Bool.and_eq_true,
        ComparisonLiteral.sameValue_iff, Condition.comparison.injEq, ComparisonCondition.mk.injEq]
      simp only [Bool.not_eq_true', decide_eq_false_iff_not, not_or, not_not]
      tauto
    | _ => simp [equals, shape]
  | .and operands, b => by
    cases b with
    | and others => simpa [equals, shape, NanFree] using equalsOperands_iff operands others
    | _ => simp [equals, shape]
  | .or operands, b => by
    cases b with
    | or others => simpa [equals, shape, NanFree] using equalsOperands_iff operands others
    | _ => simp [equals, shape]
  | .not operand, b => by
    cases b with
    | not other => simpa [equals, shape, NanFree] using equals_iff operand other
    | _ => simp [equals, shape]

theorem equalsOperands_iff : ∀ operands others : List Condition,
    equalsOperands operands others = true ↔
      shapes operands = shapes others ∧ NanFreeOperands operands
  | [], others => by cases others <;> simp [equalsOperands, shapes, NanFreeOperands]
  | operand :: operands, [] => by simp [equalsOperands, shapes]
  | operand :: operands, other :: others => by
    have hoperand := equals_iff operand other
    have hoperands := equalsOperands_iff operands others
    simp only [equalsOperands, shapes, NanFreeOperands, Bool.and_eq_true, List.cons.injEq,
      hoperand, hoperands]
    tauto

end

end Condition

mutual

/-- A tree evaluates like its shape. -/
theorem evaluateCondition_shape (dateParse : String → Option ℤ) (context : AttributeContext) :
    ∀ condition : Condition, evaluateCondition dateParse context condition.shape =
      evaluateCondition dateParse context condition
  | .always => rfl
  | .comparison leaf => by
    rw [Condition.shape, evaluateCondition, evaluateCondition, evaluateComparison,
      evaluateComparison]
    cases context.resolve leaf.attribute with
    | none => rfl
    | some actual => exact compareResolved_withIdentity dateParse actual leaf.operator leaf.value 0
  | .and operands => by
    rw [Condition.shape, evaluateCondition, evaluateCondition]
    exact evaluateEvery_shapes dateParse context operands
  | .or operands => by
    rw [Condition.shape, evaluateCondition, evaluateCondition]
    exact evaluateSome_shapes dateParse context operands
  | .not operand => by
    rw [Condition.shape, evaluateCondition, evaluateCondition,
      evaluateCondition_shape dateParse context operand]

theorem evaluateEvery_shapes (dateParse : String → Option ℤ) (context : AttributeContext) :
    ∀ operands : List Condition, evaluateEvery dateParse context (Condition.shapes operands) =
      evaluateEvery dateParse context operands
  | [] => rfl
  | operand :: operands => by
    rw [Condition.shapes, evaluateEvery, evaluateEvery,
      evaluateCondition_shape dateParse context operand,
      evaluateEvery_shapes dateParse context operands]

theorem evaluateSome_shapes (dateParse : String → Option ℤ) (context : AttributeContext) :
    ∀ operands : List Condition, evaluateSome dateParse context (Condition.shapes operands) =
      evaluateSome dateParse context operands
  | [] => rfl
  | operand :: operands => by
    rw [Condition.shapes, evaluateSome, evaluateSome,
      evaluateCondition_shape dateParse context operand,
      evaluateSome_shapes dateParse context operands]

end

/-- A tree without a `NaN`. -/
abbrev NanFreeCondition := { condition : Condition // condition.NanFree }

/-- On the trees without a `NaN`, `Condition.equals` is an equivalence relation; and any two trees
that it declares equal evaluate alike. -/
theorem equals_sound :
    Equivalence (fun a b : NanFreeCondition => a.1.equals b.1 = true) ∧
      ∀ a b : Condition, a.equals b = true →
        ∀ (dateParse : String → Option ℤ) (context : AttributeContext),
          evaluateCondition dateParse context a = evaluateCondition dateParse context b := by
  refine ⟨⟨fun a => ?_, fun {a b} h => ?_, fun {a b c} hab hbc => ?_⟩, ?_⟩
  · exact (Condition.equals_iff _ _).mpr ⟨rfl, a.2⟩
  · exact (Condition.equals_iff _ _).mpr ⟨((Condition.equals_iff _ _).mp h).1.symm, b.2⟩
  · have hfirst := ((Condition.equals_iff _ _).mp hab).1
    have hsecond := ((Condition.equals_iff _ _).mp hbc).1
    exact (Condition.equals_iff _ _).mpr ⟨hfirst.trans hsecond, a.2⟩
  · intro a b h dateParse context
    rw [← evaluateCondition_shape dateParse context a, ((Condition.equals_iff a b).mp h).1,
      evaluateCondition_shape dateParse context b]

end Verixa.Authorization
