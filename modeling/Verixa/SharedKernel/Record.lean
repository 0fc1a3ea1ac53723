import Verixa.Collections.OrderedMap

/-!
# Plain objects, values of unknown type, and validation errors

`StringRecord` is a plain object whose own properties are strings (`Record<string, string>`), and
`UnknownRecord` one whose properties may hold anything.  `StringRecord.assign` is the assignment
`record[key] = value`: on a plain object it creates or replaces an own property, except under the
name `__proto__`, where it reaches the prototype setter, which ignores a string.
-/

namespace Verixa

/-- What `typeof` answers for a value that is neither a string, nor `null`, nor an array. -/
inductive TypeName where
  | object
  | number
  | boolean
  | undefined
  | function
  | symbol
  | bigint
  deriving DecidableEq

/-- The text of a `typeof` answer. -/
def TypeName.text : TypeName → String
  | .object => "object"
  | .number => "number"
  | .boolean => "boolean"
  | .undefined => "undefined"
  | .function => "function"
  | .symbol => "symbol"
  | .bigint => "bigint"

/-- A value of unknown type, as far as the code looks at one. -/
inductive Unknown where
  | string (value : String)
  | null
  | array
  | other (type : TypeName)
  deriving DecidableEq

/-- `Record<string, string>`. -/
abbrev StringRecord := OrderedMap String String

/-- `Record<string, unknown>`. -/
abbrev UnknownRecord := OrderedMap String Unknown

/-- A record of strings seen as a record of values of unknown type. -/
def StringRecord.toUnknown (r : StringRecord) : UnknownRecord :=
  r.mapValues Unknown.string

/-- The property name that an assignment does not create. -/
def protoKey : String := "__proto__"

/-- `record[key] = value` for a string value. -/
def StringRecord.assign (r : StringRecord) (key value : String) : StringRecord :=
  if key = protoKey then r else r.set key value

/-- Reading after an assignment. -/
theorem StringRecord.get?_assign (r : StringRecord) (key k value : String) :
    (r.assign key value).get? k =
      if key ≠ protoKey ∧ key = k then some value else r.get? k := by
  unfold StringRecord.assign
  by_cases h : key = protoKey
  · simp [h]
  · simp [h, OrderedMap.get?_set]

/-- A `ValidationError`: a message, and the codes found wrong with each field. -/
structure ValidationError where
  message : String
  fieldErrors : List (String × List String)
  deriving DecidableEq

/-- `error.fieldErrors[field] ?? []`. -/
def ValidationError.errorsOf (e : ValidationError) (field : String) : List String :=
  (OrderedMap.lookupEntry field e.fieldErrors).getD []

end Verixa
