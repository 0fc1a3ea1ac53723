import Mathlib.Data.List.Basic
import Verixa.SharedKernel.Number

/-!
# Plain values

Plain data on its way into a JSON column, and what `JSON.parse` returns.  A plain value may hold
numbers that JSON has no text for; `reparsed` says what is left of it after
`JSON.parse(JSON.stringify(value))`.
-/

namespace Verixa

/-- A value made of primitives, arrays and plain objects. -/
inductive PlainValue where
  | null
  | boolean (value : Bool)
  | number (value : Number)
  | string (value : String)
  | array (items : List PlainValue)
  | object (fields : List (String × PlainValue))

namespace PlainValue

/-- An own property of an object. -/
def property (fields : List (String × PlainValue)) (key : String) : Option PlainValue :=
  (fields.find? fun field => field.1 = key).map Prod.snd

mutual

/-- `JSON.parse(JSON.stringify(value))`: numbers that are not finite become `null`. -/
def reparsed : PlainValue → PlainValue
  | .number (.finite value) => .number (.finite value)
  | .number _ => .null
  | .array items => .array (reparsedItems items)
  | .object fields => .object (reparsedFields fields)
  | value => value

/-- The items of an array. -/
def reparsedItems : List PlainValue → List PlainValue
  | [] => []
  | item :: items => item.reparsed :: reparsedItems items

/-- The fields of an object. -/
def reparsedFields : List (String × PlainValue) → List (String × PlainValue)
  | [] => []
  | (key, value) :: fields => (key, value.reparsed) :: reparsedFields fields

end

theorem reparsedItems_eq_map (items : List PlainValue) :
    reparsedItems items = items.map reparsed := by
  induction items with
  | nil => rfl
  | cons item items ih => rw [reparsedItems, ih, List.map_cons]

end PlainValue

end Verixa
