import Verixa.Authorization.Condition
import Verixa.SharedKernel.Errors

/-!
# Attributes as objects

The bags of an `AttributeContext` are rebuilt by assignment on ordinary objects, and read by plain
indexing.  An assignment under the key `__proto__` makes no property: it sets the prototype of the
copy, if the value is an object, and does nothing otherwise.  Reading finds own properties and all
that the prototypes have.  Here values are modelled with their prototypes.
-/

namespace Verixa.Authorization

/-- A value at run time.  A plain object has its own properties, in the order of `Object.entries`,
and its prototype, if that is not `Object.prototype`. -/
inductive ObjectValue where
  | string (value : String)
  | number (value : Number)
  | boolean (value : Bool)
  | date (time : Option ℤ)
  | array (items : List ObjectValue)
  | object (own : List (String × ObjectValue)) (prototype : Option ObjectValue)

/-! ## What the built-in prototypes have -/

/-- The functions of `Object.prototype`. -/
def objectMethods : List String :=
  ["constructor", "hasOwnProperty", "isPrototypeOf", "propertyIsEnumerable", "toLocaleString",
    "toString", "valueOf", "__defineGetter__", "__defineSetter__", "__lookupGetter__",
    "__lookupSetter__"]

/-- The functions of `Array.prototype`. -/
def arrayMethods : List String :=
  ["constructor", "at", "concat", "copyWithin", "entries", "every", "fill", "filter", "find",
    "findIndex", "findLast", "findLastIndex", "flat", "flatMap", "forEach", "includes", "indexOf",
    "join", "keys", "lastIndexOf", "map", "pop", "push", "reduce", "reduceRight", "reverse",
    "shift", "slice", "some", "sort", "splice", "toLocaleString", "toReversed", "toSorted",
    "toSpliced", "toString", "unshift", "values", "with"]

/-- The functions of `Date.prototype`. -/
def dateMethods : List String :=
  ["constructor", "getDate", "getDay", "getFullYear", "getHours", "getMilliseconds", "getMinutes",
    "getMonth", "getSeconds", "getTime", "getTimezoneOffset", "getUTCDate", "getUTCDay",
    "getUTCFullYear", "getUTCHours", "getUTCMilliseconds", "getUTCMinutes", "getUTCMonth",
    "getUTCSeconds", "getYear", "setDate", "setFullYear", "setHours", "setMilliseconds",
    "setMinutes", "setMonth", "setSeconds", "setTime", "setUTCDate", "setUTCFullYear",
    "setUTCHours", "setUTCMilliseconds", "setUTCMinutes", "setUTCMonth", "setUTCSeconds",
    "setYear", "toDateString", "toGMTString", "toISOString", "toJSON", "toLocaleDateString",
    "toLocaleString", "toLocaleTimeString", "toString", "toTimeString", "toUTCString", "valueOf"]

/-- What reading may find. -/
inductive Found where
  | value (value : ObjectValue)
  /-- A function of a built-in prototype. -/
  | function (name : String)
  | objectPrototype
  | arrayPrototype
  | datePrototype
  | null

/-- A function of `Object.prototype`, if there is one of that name. -/
def objectMember (key : String) : Option Found :=
  if key ∈ objectMethods then some (.function key) else none

/-- A function of a prototype in front of `Object.prototype`, or one of that. -/
def memberOf (methods : List String) (key : String) : Option Found :=
  if key ∈ methods then some (.function key) else objectMember key

/-- `items[key]`, for the own properties of an array. -/
def arrayOwn {α : Type*} (length : Number → α) (items : List α) (key : String) : Option α :=
  if key = "length" then some (length (.finite items.length))
  else ((List.range items.length).find? fun i => decide (Nat.repr i = key)).bind (items[·]?)

namespace ObjectValue

/-- `value instanceof Date`: also of an object whose prototype is a date. -/
def isDate : ObjectValue → Bool
  | .date _ => true
  | .object _ (some prototype) => prototype.isDate
  | _ => false

/-- `typeof value === "object"`. -/
def isObject : ObjectValue → Bool
  | .date _ | .array _ | .object _ _ => true
  | _ => false

/-! ## Copies -/

/-- The key is an own property of the value or of one of its prototypes, below the built-in ones. -/
def hasInChain (key : String) : ObjectValue → Bool
  | .object own prototype =>
    (OrderedMap.lookupEntry key own).isSome ||
      match prototype with
      | none => false
      | some prototype => prototype.hasInChain key
  | .array items => (arrayOwn .number items key).isSome
  | _ => false

/-- A copy as it is built: its own properties and its prototype. -/
abbrev Copy := List (String × ObjectValue) × Option ObjectValue

/-- `copy[key] = value`.  What a copy inherits from a value under `__proto__` is frozen, so that an
assignment throws. -/
def assign (copy : Copy) (key : String) (value : ObjectValue) : Except ThrownError Copy :=
  if key = prototypeKey then .ok (copy.1, if value.isObject then some value else copy.2)
  else if (copy.2.map (hasInChain key)).getD false then
    .error { name := "TypeError", message :=
      "Cannot assign to read only property '" ++ key ++ "' of object '#<Object>'" }
  else .ok (OrderedMap.upsertEntry key value copy.1, copy.2)

mutual

/-- `cloneValue(value)`. -/
def cloneValue : ObjectValue → Except ThrownError ObjectValue
  | .array items => (cloneItems items).map .array
  | .object own prototype =>
    if (prototype.map isDate).getD false then
      .error { name := "TypeError", message := "this is not a Date object." }
    else cloneEntries ([], none) own
  | value => .ok value

/-- `items.map((item) => cloneValue(item))`. -/
def cloneItems : List ObjectValue → Except ThrownError (List ObjectValue)
  | [] => .ok []
  | item :: items => do
    let item ← cloneValue item
    let items ← cloneItems items
    return item :: items

/-- The loop of `cloneBag`. -/
def cloneEntries (copy : Copy) : List (String × ObjectValue) → Except ThrownError ObjectValue
  | [] => .ok (.object copy.1 copy.2)
  | (key, value) :: entries => do
    let value ← cloneValue value
    let copy ← assign copy key value
    cloneEntries copy entries

end

/-- `cloneBag(bag)`, for the entries of a bag that are defined. -/
def cloneBag (entries : List (String × ObjectValue)) : Except ThrownError ObjectValue :=
  cloneEntries ([], none) entries

/-- The own entries of a value. -/
def entries : ObjectValue → List (String × ObjectValue)
  | .object own _ => own
  | _ => []

/-! ## Reading -/

/-- `value[key]`, for a key other than `__proto__`. -/
def chainProperty (key : String) : ObjectValue → Option Found
  | .object own prototype =>
    match OrderedMap.lookupEntry key own with
    | some value => some (.value value)
    | none =>
      match prototype with
      | none => objectMember key
      | some prototype => prototype.chainProperty key
  | .array items =>
    match arrayOwn .number items key with
    | some value => some (.value value)
    | none => memberOf arrayMethods key
  | .date _ => memberOf dateMethods key
  | _ => none

/-- `value["__proto__"]`: no copy has a property of that name, so that the prototype is read. -/
def prototypeOf : ObjectValue → Option Found
  | .object _ none => some .objectPrototype
  | .object _ (some prototype) => some (.value prototype)
  | .array _ => some .arrayPrototype
  | .date _ => some .datePrototype
  | _ => none

end ObjectValue

namespace Found

/-- `current[segment]`. -/
def property : Found → String → Option Found
  | .value actual, key =>
    if key = prototypeKey then actual.prototypeOf else actual.chainProperty key
  | .objectPrototype, key => if key = prototypeKey then some .null else objectMember key
  | .arrayPrototype, key =>
    if key = prototypeKey then some .objectPrototype
    else if key = "length" then some (.value (.number (.finite 0)))
    else memberOf arrayMethods key
  | .datePrototype, key =>
    if key = prototypeKey then some .objectPrototype else memberOf dateMethods key
  | .function _, _ | .null, _ => none

/-- Whether `get` reads on: the value is an object, and neither `null` nor a date. -/
def isOpen : Found → Bool
  | .value actual => actual.isObject && !actual.isDate
  | .objectPrototype | .arrayPrototype | .datePrototype => true
  | .function _ | .null => false

/-- The loop of `get`. -/
def follow : Found → List String → Option Found
  | current, [] => some current
  | current, segment :: segments =>
    if segment = "" ∨ current.isOpen = false then none
    else
      match current.property segment with
      | none => none
      | some next => next.follow segments

end Found

/-! ## Contexts -/

/-- The attributes of a request, each bag being a frozen copy. -/
structure ObjectContext where
  subject : ObjectValue
  resource : ObjectValue
  action : ObjectValue
  environment : ObjectValue

namespace ObjectContext

/-- `this[bag]`. -/
def bag (context : ObjectContext) : AttributeBagName → ObjectValue
  | .subject => context.subject
  | .resource => context.resource
  | .action => context.action
  | .environment => context.environment

/-- The segments of a path. -/
def segmentsOf (path : String) : List String := (path.toList.splitOn '.').map String.ofList

/-- `context.get(bag, path)`. -/
def get (context : ObjectContext) (name : AttributeBagName) (path : String) : Option Found :=
  if path = "" then none else (Found.value (context.bag name)).follow (segmentsOf path)

/-- `context.resolve(path)`. -/
def resolve (context : ObjectContext) (path : String) : Option Found :=
  match addressOf path with
  | none => none
  | some (name, key) => (Found.value (context.bag name)).property key

/-- The four bags from their entries. -/
def ofEntries (entries : AttributeBagName → List (String × ObjectValue)) :
    Except ThrownError ObjectContext := do
  let subject ← ObjectValue.cloneBag (entries .subject)
  let resource ← ObjectValue.cloneBag (entries .resource)
  let action ← ObjectValue.cloneBag (entries .action)
  let environment ← ObjectValue.cloneBag (entries .environment)
  return ⟨subject, resource, action, environment⟩

/-- `context.toBags()`. -/
def toBags (context : ObjectContext) : Except ThrownError ObjectContext :=
  ofEntries fun name => (context.bag name).entries

end ObjectContext

end Verixa.Authorization
