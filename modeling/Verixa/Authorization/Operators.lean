import Mathlib.Data.List.Infix
import Verixa.Authorization.Condition
import Verixa.Encoding.PlainJson
import Verixa.SharedKernel.IsoDate

/-!
# The operators of the policy language

`evaluateOperator` applies a comparison to two attribute values, either of which may be missing.
Values of different types are never equal, and an operator that does not fit its operands gives a
reason instead of a result.  Arrays and records are compared by their JSON texts, in which the
fields of a record stand in the order in which it lists them.
-/

namespace Verixa.Authorization.Dsl

open Encoding

/-- The operators `==`, `!=`, `<`, `<=`, `>`, `>=`, `in`, `contains` and `matches`. -/
inductive ComparisonOperator where
  | equal
  | notEqual
  | less
  | lessOrEqual
  | greater
  | greaterOrEqual
  | in
  | contains
  | matches
  deriving DecidableEq

/-- Why there is no result. -/
inductive MismatchReason where
  | typeMismatch
  | invalidPattern
  | invalidDate
  deriving DecidableEq

/-- The result of an operator. -/
inductive OperatorResult where
  | success (value : Bool)
  | failure (reason : MismatchReason)
  deriving DecidableEq

def mismatch : OperatorResult := .failure .typeMismatch

/-- What the operators use of the language. -/
structure Host where
  numerals : Numerals
  /-- `new RegExp(pattern, "u").test(text)`, if the pattern is one. -/
  regExpTest : String → String → Option Bool

/-! ## JSON texts -/

/-- What `toJSON` makes of a date. -/
def dateToJson (time : Option ℤ) : PlainValue :=
  match time.bind Date.ofTime? with
  | some date => .string date.toISOString
  | none => .null

mutual

/-- The value with its dates written as texts. -/
def toJson : AttributeValue → PlainValue
  | .string value => .string value
  | .number value => .number value
  | .boolean value => .boolean value
  | .date time => dateToJson time
  | .array items => .array (toJsonItems items)
  | .record fields => .object (toJsonFields fields)

def toJsonItems : List AttributeValue → List PlainValue
  | [] => []
  | item :: items => toJson item :: toJsonItems items

def toJsonFields : List (String × AttributeValue) → List (String × PlainValue)
  | [] => []
  | (key, value) :: fields => (key, toJson value) :: toJsonFields fields

end

/-- `JSON.stringify(value)`. -/
def stringify (numerals : Numerals) (value : AttributeValue) : List Char :=
  (toJson value).json numerals

/-! ## Equality -/

/-- `typeof value`. -/
def typeOf : AttributeValue → String
  | .string _ => "string"
  | .number _ => "number"
  | .boolean _ => "boolean"
  | .date _ | .array _ | .record _ => "object"

/-- `Array.isArray(value)`. -/
def isArray : AttributeValue → Bool
  | .array _ => true
  | _ => false

/-- `date.getTime()`. -/
def getTime (time : Option ℤ) : Number :=
  match time with
  | some time => .finite time
  | none => .nan

/-- `left === right` for values that are no objects. -/
def identical : AttributeValue → AttributeValue → Bool
  | .string a, .string b => decide (a = b)
  | .number a, .number b => a.strictEq b
  | .boolean a, .boolean b => decide (a = b)
  | _, _ => false

def sameTypedValue (numerals : Numerals) (left right : AttributeValue) : Bool :=
  if typeOf left ≠ typeOf right then false
  else
    match left, right with
    | .date time, .date time' => (getTime time).strictEq (getTime time')
    | left, right =>
      if isArray left || isArray right then
        isArray left && isArray right &&
          decide (stringify numerals left = stringify numerals right)
      else if typeOf left = "object" ∧ typeOf right = "object" then
        decide (stringify numerals left = stringify numerals right)
      else identical left right

/-! ## Order -/

/-- What an operator says of the order of its operands. -/
def orderHolds : ComparisonOperator → Ordering → Bool
  | .less, order => order == .lt
  | .lessOrEqual, order => order != .gt
  | .greater, order => order == .gt
  | .greaterOrEqual, order => order != .lt
  | _, _ => false

/-- The order of texts by their code units. -/
def compareTexts (left right : String) : Ordering :=
  if utf16CodeUnits left < utf16CodeUnits right then .lt
  else if utf16CodeUnits right < utf16CodeUnits left then .gt
  else .eq

def compare (operator : ComparisonOperator) : AttributeValue → AttributeValue → OperatorResult
  | .number (.finite a), .number (.finite b) => .success (orderHolds operator (Ord.compare a b))
  | .string a, .string b => .success (orderHolds operator (compareTexts a b))
  | .date (some a), .date (some b) => .success (orderHolds operator (Ord.compare a b))
  | .date _, .date _ => .failure .invalidDate
  | _, _ => mismatch

/-! ## Evaluation -/

/-- `text.includes(part)`. -/
def textIncludes (text part : String) : Bool := decide (part.toList <:+: text.toList)

def evaluateOperator (host : Host) (operator : ComparisonOperator)
    (left right : Option AttributeValue) : OperatorResult :=
  match left, right with
  | some left, some right =>
    match operator with
    | .equal => .success (sameTypedValue host.numerals left right)
    | .notEqual => .success (!sameTypedValue host.numerals left right)
    | .less | .lessOrEqual | .greater | .greaterOrEqual => compare operator left right
    | .in =>
      match right with
      | .array items =>
        .success (items.any fun candidate => sameTypedValue host.numerals left candidate)
      | _ => mismatch
    | .contains =>
      match left, right with
      | .string text, .string part => .success (textIncludes text part)
      | .array items, right =>
        .success (items.any fun candidate => sameTypedValue host.numerals candidate right)
      | _, _ => mismatch
    | .matches =>
      match left, right with
      | .string text, .string pattern =>
        match host.regExpTest pattern text with
        | some result => .success result
        | none => .failure .invalidPattern
      | _, _ => mismatch
  | _, _ => .success false

/-- Whether a value lies between two others, these included. -/
def between (value start stop : Option AttributeValue) : OperatorResult :=
  match value, start, stop with
  | some (.date (some value)), some (.date (some start)), some (.date (some stop)) =>
    .success (decide (start ≤ value ∧ value ≤ stop))
  | some (.date _), some (.date _), some (.date _) => .failure .invalidDate
  | some (.number (.finite value)), some (.number (.finite start)),
      some (.number (.finite stop)) => .success (decide (start ≤ value ∧ value ≤ stop))
  | some _, some _, some _ => mismatch
  | _, _, _ => .success false

end Verixa.Authorization.Dsl
