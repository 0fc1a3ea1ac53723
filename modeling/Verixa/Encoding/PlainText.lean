import Verixa.Encoding.PlainValue
import Verixa.SharedKernel.Errors

/-!
# The text of a plain value

Reading a member of a value that `JSON.parse` returned, and what a template literal makes of such a
value.  Both can throw: `null` has no members, an object that owns a key `toString` cannot be
converted to a text (what `JSON.parse` puts there is no function), and arrays nested deeper than the
stack holds cannot be joined.  `HasText` says when there is a text.
-/

namespace Verixa

/-- The error of a call that finds no room on the stack. -/
def stackExceeded : ThrownError := ⟨"RangeError", "Maximum call stack size exceeded"⟩

namespace PlainValue

/-- `value.key`, for a key that no prototype has. -/
def member (value : PlainValue) (key : String) : Except ThrownError (Option PlainValue) :=
  match value with
  | .null => .error ⟨"TypeError", "Cannot read properties of null (reading '" ++ key ++ "')"⟩
  | .object fields => .ok (property fields key)
  | _ => .ok none

/-- What `join` puts for an item. -/
def joined (textOf : PlainValue → Except ThrownError String) :
    PlainValue → Except ThrownError String
  | .null => .ok ""
  | item => textOf item

/-- `${value}`, with room for `stack` nested joins on the stack. -/
def text (numberText : Number → String) : ℕ → PlainValue → Except ThrownError String
  | _, .null => .ok "null"
  | _, .boolean value => .ok (if value then "true" else "false")
  | _, .number value => .ok (numberText value)
  | _, .string value => .ok value
  | _, .object fields =>
    -- neither the owned `toString` nor `valueOf` gives a primitive
    if (property fields "toString").isSome then
      .error ⟨"TypeError", "Cannot convert object to primitive value"⟩
    else .ok "[object Object]"
  | 0, .array _ => .error stackExceeded
  | stack + 1, .array items => do
    let texts ← items.mapM (joined (text numberText stack))
    return ",".intercalate texts

/-- The value can be converted to a text: no object reached through arrays owns `toString`, and the
arrays are nested at most `stack` deep. -/
def HasText : ℕ → PlainValue → Prop
  | _, .object fields => property fields "toString" = none
  | 0, .array _ => False
  | stack + 1, .array items => ∀ item ∈ items, HasText stack item
  | _, _ => True

/-- A list of computations succeeds when each of them does. -/
theorem exists_mapM_ok_iff {α β ε : Type*} {f : α → Except ε β} {as : List α} :
    (∃ bs, as.mapM f = .ok bs) ↔ ∀ a ∈ as, ∃ b, f a = .ok b := by
  induction as with
  | nil => simp [pure, Except.pure]
  | cons a as ih =>
    rw [List.forall_mem_cons, ← ih, List.mapM_cons]
    cases f a with
    | error e => simp [bind, Except.bind]
    | ok b =>
      cases as.mapM f with
      | error e => simp [bind, Except.bind]
      | ok bs => simp [bind, Except.bind, pure, Except.pure]

/-- The items of an array and their conversions. -/
theorem exists_joined_ok_iff {textOf : PlainValue → Except ThrownError String}
    {item : PlainValue} (h : ∃ result, textOf .null = .ok result) :
    (∃ result, joined textOf item = .ok result) ↔ ∃ result, textOf item = .ok result := by
  cases item with
  | null => exact ⟨fun _ => h, fun _ => ⟨"", rfl⟩⟩
  | _ => exact Iff.rfl

/-- An object has a text unless it owns `toString`. -/
theorem exists_text_object_ok_iff {numberText : Number → String} {stack : ℕ}
    {fields : List (String × PlainValue)} :
    (∃ result, text numberText stack (.object fields) = .ok result) ↔
      property fields "toString" = none := by
  have htext : text numberText stack (.object fields) =
      if (property fields "toString").isSome then
        .error ⟨"TypeError", "Cannot convert object to primitive value"⟩
      else .ok "[object Object]" := by
    cases stack <;> rfl
  rw [htext]
  cases property fields "toString" <;> simp

/-- When a conversion to a text succeeds. -/
theorem exists_text_ok_iff {numberText : Number → String} {stack : ℕ} {value : PlainValue} :
    (∃ result, text numberText stack value = .ok result) ↔ HasText stack value := by
  induction stack generalizing value with
  | zero =>
    cases value with
    | object fields => exact exists_text_object_ok_iff
    | _ => simp [text, HasText]
  | succ stack ih =>
    cases value with
    | array items =>
      have hnull : ∃ result, text numberText stack .null = .ok result :=
        ⟨"null", by cases stack <;> rfl⟩
      have hitems : (∃ texts, items.mapM (joined (text numberText stack)) = .ok texts) ↔
          ∀ item ∈ items, HasText stack item := by
        rw [exists_mapM_ok_iff]
        exact forall₂_congr fun item _ => (exists_joined_ok_iff hnull).trans ih
      rw [HasText, ← hitems, text]
      cases items.mapM (joined (text numberText stack)) <;>
        simp [bind, Except.bind, pure, Except.pure]
    | object fields => exact exists_text_object_ok_iff
    | _ => simp [text, HasText]

end PlainValue

end Verixa
