import Verixa.Authorization.AttributeObjects

/-!
# Which attributes a lookup sees

A supplied value is plain data, with any keys.  Without the key `__proto__` its copy is the same
data; under that key a property is lost, from the copies of the copies at the latest.  And of what
is copied a lookup finds the own properties, but where there is none also a member that the object
inherits.  So lookups see just what was supplied exactly if no key is `__proto__` and the path names
no inherited member (`lookups_own_iff`).
-/

namespace Verixa.Authorization

/-! ## Supplied values -/

namespace AttributeValue

mutual

/-- The value as it is at run time. -/
def toObject : AttributeValue → ObjectValue
  | .string value => .string value
  | .number value => .number value
  | .boolean value => .boolean value
  | .date time => .date time
  | .array items => .array (toObjects items)
  | .record fields => .object (toEntries fields) none

def toObjects : List AttributeValue → List ObjectValue
  | [] => []
  | item :: items => item.toObject :: toObjects items

def toEntries : List (String × AttributeValue) → List (String × ObjectValue)
  | [] => []
  | (key, value) :: fields => (key, value.toObject) :: toEntries fields

end

theorem toObjects_eq_map (items : List AttributeValue) : toObjects items = items.map toObject := by
  induction items with
  | nil => rfl
  | cons item items ih => rw [toObjects, ih, List.map_cons]

theorem toEntries_eq_map (fields : List (String × AttributeValue)) :
    toEntries fields = fields.map fun field => (field.1, field.2.toObject) := by
  induction fields with
  | nil => rfl
  | cons field fields ih => rw [toEntries, ih, List.map_cons]

mutual

/-- No record has a key twice. -/
def Distinct : AttributeValue → Prop
  | .array items => DistinctItems items
  | .record fields => (fields.map Prod.fst).Nodup ∧ DistinctFields fields
  | _ => True

def DistinctItems : List AttributeValue → Prop
  | [] => True
  | item :: items => item.Distinct ∧ DistinctItems items

def DistinctFields : List (String × AttributeValue) → Prop
  | [] => True
  | (_, value) :: fields => value.Distinct ∧ DistinctFields fields

end

mutual

/-- No record has the key `__proto__`. -/
def PrototypeFree : AttributeValue → Prop
  | .array items => PrototypeFreeItems items
  | .record fields => PrototypeFreeFields fields
  | _ => True

def PrototypeFreeItems : List AttributeValue → Prop
  | [] => True
  | item :: items => item.PrototypeFree ∧ PrototypeFreeItems items

def PrototypeFreeFields : List (String × AttributeValue) → Prop
  | [] => True
  | (key, value) :: fields => key ≠ prototypeKey ∧ value.PrototypeFree ∧ PrototypeFreeFields fields

end

/-- An own property of the value. -/
def ownStep : AttributeValue → String → Option AttributeValue
  | .record fields, key => OrderedMap.lookupEntry key fields
  | .array items, key => arrayOwn .number items key
  | _, _ => none

/-- What a path leads to through own properties; an empty segment names none. -/
def ownWalk : AttributeValue → List String → Option AttributeValue
  | value, [] => some value
  | value, segment :: segments =>
    if segment = "" then none else (ownStep value segment).bind fun next => ownWalk next segments

end AttributeValue

/-! ## Copies of supplied values -/

section Copies

open ObjectValue AttributeValue

mutual

/-- The copy of a value without the key `__proto__` is that value. -/
theorem cloneValue_toObject : ∀ value : AttributeValue, value.Distinct → value.PrototypeFree →
    cloneValue value.toObject = .ok value.toObject
  | .string _, _, _ | .number _, _, _ | .boolean _, _, _ | .date _, _, _ => rfl
  | .array items, hdistinct, hfree => by
    rw [toObject, cloneValue, cloneItems_toObjects items hdistinct hfree]
    rfl
  | .record fields, hdistinct, hfree => by
    have hentries := cloneEntries_toEntries fields [] (by simpa using hdistinct.1) hdistinct.2 hfree
    rw [toObject, cloneValue]
    exact hentries

theorem cloneItems_toObjects : ∀ items : List AttributeValue, DistinctItems items →
    PrototypeFreeItems items → cloneItems (toObjects items) = .ok (toObjects items)
  | [], _, _ => rfl
  | item :: items, hdistinct, hfree => by
    rw [toObjects, cloneItems, cloneValue_toObject item hdistinct.1 hfree.1]
    change (cloneItems (toObjects items) >>= _) = _
    rw [cloneItems_toObjects items hdistinct.2 hfree.2]
    rfl

/-- The loop of `cloneBag`, by induction on the entries that are left: those before are copied as
they are. -/
theorem cloneEntries_toEntries : ∀ (fields : List (String × AttributeValue))
    (done : List (String × ObjectValue)), (done.map Prod.fst ++ fields.map Prod.fst).Nodup →
    DistinctFields fields → PrototypeFreeFields fields →
    cloneEntries (done, none) (toEntries fields) = .ok (.object (done ++ toEntries fields) none)
  | [], done, _, _, _ => by
    rw [toEntries, cloneEntries, List.append_nil]
  | (key, value) :: fields, done, hnodup, hdistinct, hfree => by
    have hnew : key ∉ done.map Prod.fst := by
      intro hmem
      exact (List.nodup_append.mp hnodup).2.2 _ hmem _ List.mem_cons_self rfl
    have hassign : assign (done, none) key value.toObject =
        .ok (done ++ [(key, value.toObject)], none) := by
      rw [assign, if_neg hfree.1, OrderedMap.upsertEntry_of_not_mem hnew]
      rfl
    have hrest := cloneEntries_toEntries fields (done ++ [(key, value.toObject)])
      (by simpa [List.append_assoc] using hnodup) hdistinct.2 hfree.2.2
    rw [toEntries, cloneEntries, cloneValue_toObject value hdistinct.1 hfree.2.1]
    change (assign (done, none) key value.toObject >>= fun copy =>
      cloneEntries copy (toEntries fields)) = _
    rw [hassign]
    change cloneEntries (done ++ [(key, value.toObject)], none) (toEntries fields) = _
    rw [hrest, List.append_assoc]
    rfl

end

mutual

/-- No object in the value has an own property `__proto__`. -/
def OwnsNoPrototype : ObjectValue → Prop
  | .array items => OwnsNoPrototypeItems items
  | .object own _ => OwnsNoPrototypeEntries own
  | _ => True

def OwnsNoPrototypeItems : List ObjectValue → Prop
  | [] => True
  | item :: items => OwnsNoPrototype item ∧ OwnsNoPrototypeItems items

def OwnsNoPrototypeEntries : List (String × ObjectValue) → Prop
  | [] => True
  | (key, value) :: entries =>
    key ≠ prototypeKey ∧ OwnsNoPrototype value ∧ OwnsNoPrototypeEntries entries

end

theorem ownsNoPrototypeEntries_upsertEntry {key : String} {value : ObjectValue}
    (hkey : key ≠ prototypeKey) (hvalue : OwnsNoPrototype value) :
    ∀ {entries : List (String × ObjectValue)}, OwnsNoPrototypeEntries entries →
      OwnsNoPrototypeEntries (OrderedMap.upsertEntry key value entries)
  | [], _ => ⟨hkey, hvalue, trivial⟩
  | (key', value') :: entries, h => by
    rw [OrderedMap.upsertEntry]
    split
    · exact ⟨hkey, hvalue, h.2.2⟩
    · exact ⟨h.1, h.2.1, ownsNoPrototypeEntries_upsertEntry hkey hvalue h.2.2⟩

/-- An assignment makes no property `__proto__`. -/
theorem ownsNoPrototypeEntries_of_assign {copy copy' : Copy} {key : String} {value : ObjectValue}
    (h : assign copy key value = .ok copy') (hcopy : OwnsNoPrototypeEntries copy.1)
    (hvalue : OwnsNoPrototype value) : OwnsNoPrototypeEntries copy'.1 := by
  unfold assign at h
  split at h
  · rw [← Except.ok.inj h]
    exact hcopy
  · rename_i hkey
    split at h
    · cases h
    · rw [← Except.ok.inj h]
      exact ownsNoPrototypeEntries_upsertEntry hkey hvalue hcopy

mutual

/-- A copy has no property `__proto__`, at any depth. -/
theorem ownsNoPrototype_of_cloneValue : ∀ (value : ObjectValue) {copy : ObjectValue},
    cloneValue value = .ok copy → OwnsNoPrototype copy
  | .string _, _, h | .number _, _, h | .boolean _, _, h | .date _, _, h => by
    rw [← Except.ok.inj h]
    trivial
  | .array items, copy, h => by
    rw [cloneValue] at h
    cases hitems : cloneItems items with
    | error error =>
      rw [hitems] at h
      cases h
    | ok copies =>
      rw [hitems] at h
      rw [← Except.ok.inj h]
      exact ownsNoPrototypeItems_of_cloneItems items hitems
  | .object own prototype, copy, h => by
    rw [cloneValue] at h
    split at h
    · cases h
    · have hnothing : OwnsNoPrototypeEntries (([], none) : Copy).1 := trivial
      exact ownsNoPrototype_of_cloneEntries own hnothing h

theorem ownsNoPrototypeItems_of_cloneItems : ∀ (items : List ObjectValue)
    {copies : List ObjectValue}, cloneItems items = .ok copies → OwnsNoPrototypeItems copies
  | [], _, h => by
    rw [← Except.ok.inj h]
    trivial
  | item :: items, copies, h => by
    rw [cloneItems] at h
    obtain ⟨first, hitem, h⟩ := bind_eq_ok h
    obtain ⟨others, hitems, h⟩ := bind_eq_ok h
    rw [← Except.ok.inj h]
    exact ⟨ownsNoPrototype_of_cloneValue item hitem,
      ownsNoPrototypeItems_of_cloneItems items hitems⟩

theorem ownsNoPrototype_of_cloneEntries : ∀ (entries : List (String × ObjectValue)) {copy : Copy}
    {value : ObjectValue}, OwnsNoPrototypeEntries copy.1 → cloneEntries copy entries = .ok value →
    OwnsNoPrototype value
  | [], copy, value, hcopy, h => by
    rw [← Except.ok.inj h]
    exact hcopy
  | (key, field) :: entries, copy, value, hcopy, h => by
    rw [cloneEntries] at h
    obtain ⟨fieldCopy, hfield, h⟩ := bind_eq_ok h
    obtain ⟨next, hassign, h⟩ := bind_eq_ok h
    have hnext := ownsNoPrototypeEntries_of_assign hassign hcopy
      (ownsNoPrototype_of_cloneValue field hfield)
    exact ownsNoPrototype_of_cloneEntries entries hnext h

end

mutual

theorem ownsNoPrototype_toObject : ∀ value : AttributeValue,
    OwnsNoPrototype value.toObject ↔ value.PrototypeFree
  | .string _ | .number _ | .boolean _ | .date _ => Iff.rfl
  | .array items => ownsNoPrototypeItems_toObjects items
  | .record fields => ownsNoPrototypeEntries_toEntries fields

theorem ownsNoPrototypeItems_toObjects : ∀ items : List AttributeValue,
    OwnsNoPrototypeItems (toObjects items) ↔ PrototypeFreeItems items
  | [] => Iff.rfl
  | item :: items =>
    and_congr (ownsNoPrototype_toObject item) (ownsNoPrototypeItems_toObjects items)

theorem ownsNoPrototypeEntries_toEntries : ∀ fields : List (String × AttributeValue),
    OwnsNoPrototypeEntries (toEntries fields) ↔ PrototypeFreeFields fields
  | [] => Iff.rfl
  | (_, value) :: fields =>
    and_congr Iff.rfl
      (and_congr (ownsNoPrototype_toObject value) (ownsNoPrototypeEntries_toEntries fields))

end

end Copies

/-! ## Reading supplied values -/

/-- The paths that lead from `Object.prototype` to something. -/
def objectPrototypeLeads : List String → Bool
  | [] => true
  | [key] => decide (key ∈ inheritedKeys)
  | _ => false

/-- The paths that lead from `Array.prototype` to something. -/
def arrayPrototypeLeads : List String → Bool
  | [] => true
  | segment :: segments =>
    if segment = prototypeKey then objectPrototypeLeads segments
    else segments.isEmpty &&
      (decide (segment = "length") || decide (segment ∈ arrayMethods) ||
        decide (segment ∈ objectMethods))

/-- The paths that lead through a member that the value inherits to something. -/
def inheritedLeads (value : AttributeValue) (segment : String) (segments : List String) : Bool :=
  match value with
  | .record _ =>
    if segment = prototypeKey then objectPrototypeLeads segments
    else segments.isEmpty && decide (segment ∈ objectMethods)
  | .array _ =>
    if segment = prototypeKey then arrayPrototypeLeads segments
    else segments.isEmpty && (decide (segment ∈ arrayMethods) || decide (segment ∈ objectMethods))
  | _ => false

/-- The path does not leave the own properties for an inherited member. -/
def StaysOwn : AttributeValue → List String → Prop
  | _, [] => True
  | value, segment :: segments =>
    match value.ownStep segment with
    | some next => segment = "" ∨ StaysOwn next segments
    | none => inheritedLeads value segment segments = false

section Reading

open ObjectValue AttributeValue

theorem follow_of_closed {current : Found} (h : current.isOpen = false) (segments : List String) :
    (current.follow segments).isSome = segments.isEmpty := by
  cases segments with
  | nil => rfl
  | cons segment segments =>
    rw [Found.follow, if_pos (.inr h)]
    rfl

/-- A function that is read leads no further. -/
theorem follow_memberOf {key : String} {current : Found} (hopen : current.isOpen = true)
    {methods : List String} (hproperty : current.property key = memberOf methods key)
    (hkey : key ≠ "") (segments : List String) :
    (current.follow (key :: segments)).isSome =
      (segments.isEmpty && (decide (key ∈ methods) || decide (key ∈ objectMethods))) := by
  rw [Found.follow, if_neg (by simp [hkey, hopen]), hproperty, memberOf, objectMember]
  by_cases hmethod : key ∈ methods
  · rw [if_pos hmethod, decide_eq_true hmethod, Bool.true_or, Bool.and_true]
    exact follow_of_closed rfl segments
  · rw [if_neg hmethod, decide_eq_false hmethod, Bool.false_or]
    by_cases hmember : key ∈ objectMethods
    · rw [if_pos hmember, decide_eq_true hmember, Bool.and_true]
      exact follow_of_closed rfl segments
    · rw [if_neg hmember, decide_eq_false hmember, Bool.and_false]
      rfl

theorem follow_objectMember {key : String} {current : Found} (hopen : current.isOpen = true)
    (hproperty : current.property key = objectMember key) (hkey : key ≠ "")
    (segments : List String) :
    (current.follow (key :: segments)).isSome =
      (segments.isEmpty && decide (key ∈ objectMethods)) := by
  have hmember : current.property key = memberOf [] key :=
    hproperty.trans (if_neg (by simp)).symm
  simpa using follow_memberOf hopen hmember hkey segments

/-- An empty segment leads nowhere. -/
theorem follow_empty (current : Found) (segments : List String) :
    current.follow ("" :: segments) = none := by
  rw [Found.follow, if_pos (.inl rfl)]

/-- A property that is found is followed. -/
theorem follow_property {current next : Found} {key : String} (hopen : current.isOpen = true)
    (hkey : key ≠ "") (hproperty : current.property key = some next) (segments : List String) :
    current.follow (key :: segments) = next.follow segments := by
  rw [Found.follow, if_neg (by simp [hkey, hopen]), hproperty]

theorem follow_objectPrototype (segments : List String) :
    (Found.objectPrototype.follow segments).isSome = objectPrototypeLeads segments := by
  cases segments with
  | nil => rfl
  | cons key segments =>
    have hleads : objectPrototypeLeads (key :: segments) =
        (segments.isEmpty && decide (key ∈ inheritedKeys)) := by
      cases segments <;> rfl
    rw [hleads]
    by_cases hempty : key = ""
    · subst hempty
      rw [follow_empty, decide_eq_false (by decide), Bool.and_false]
      rfl
    · by_cases hproto : key = prototypeKey
      · subst hproto
        have hproperty : Found.objectPrototype.property prototypeKey = some .null := rfl
        rw [follow_property rfl hempty hproperty, follow_of_closed rfl, decide_eq_true (by decide),
          Bool.and_true]
      · have hproperty : Found.objectPrototype.property key = objectMember key := if_neg hproto
        rw [follow_objectMember rfl hproperty hempty]
        have hkeys : key ∈ inheritedKeys ↔ key ∈ objectMethods := by
          change key ∈ prototypeKey :: objectMethods ↔ _
          rw [List.mem_cons, or_iff_right hproto]
        rw [decide_eq_decide.mpr hkeys]

theorem follow_arrayPrototype (segments : List String) :
    (Found.arrayPrototype.follow segments).isSome = arrayPrototypeLeads segments := by
  cases segments with
  | nil => rfl
  | cons key segments =>
    rw [arrayPrototypeLeads]
    by_cases hempty : key = ""
    · subst hempty
      have hnone : (decide ("" = "length") || decide ("" ∈ arrayMethods) ||
          decide ("" ∈ objectMethods)) = false := by decide
      rw [follow_empty, if_neg (by decide), hnone, Bool.and_false]
      rfl
    · by_cases hproto : key = prototypeKey
      · subst hproto
        have hproperty : Found.arrayPrototype.property prototypeKey = some .objectPrototype := rfl
        rw [follow_property rfl hempty hproperty, follow_objectPrototype, if_pos rfl]
      · rw [if_neg hproto]
        by_cases hlength : key = "length"
        · subst hlength
          have hproperty : Found.arrayPrototype.property "length" =
              some (.value (.number (.finite 0))) := rfl
          rw [follow_property rfl hempty hproperty, follow_of_closed rfl, decide_eq_true rfl,
            Bool.true_or, Bool.true_or, Bool.and_true]
        · have hproperty : Found.arrayPrototype.property key = memberOf arrayMethods key :=
            (if_neg hproto).trans (if_neg hlength)
          rw [follow_memberOf rfl hproperty hempty, decide_eq_false hlength, Bool.false_or]

/-- No inherited member has an empty name. -/
theorem inheritedLeads_empty (value : AttributeValue) (segments : List String) :
    inheritedLeads value "" segments = false := by
  have hproto : "" ≠ prototypeKey := by decide
  have hobject : decide ("" ∈ objectMethods) = false := by decide
  have harray : decide ("" ∈ arrayMethods) = false := by decide
  cases value with
  | record fields => rw [inheritedLeads, if_neg hproto, hobject, Bool.and_false]
  | array items =>
    rw [inheritedLeads, if_neg hproto, hobject, harray, Bool.or_false, Bool.and_false]
  | _ => rfl

/-! ## Own properties -/

theorem lookupEntry_toEntries (key : String) (fields : List (String × AttributeValue)) :
    OrderedMap.lookupEntry key (toEntries fields) =
      (OrderedMap.lookupEntry key fields).map toObject := by
  rw [toEntries_eq_map, OrderedMap.lookupEntry_map]

theorem arrayOwn_toObjects (key : String) (items : List AttributeValue) :
    arrayOwn .number (toObjects items) key = (arrayOwn .number items key).map toObject := by
  rw [toObjects_eq_map, arrayOwn, arrayOwn, List.length_map]
  split
  · rfl
  · cases (List.range items.length).find? fun i => decide (Nat.repr i = key) with
    | none => rfl
    | some i => simp

/-- No array has an own property `__proto__`. -/
theorem arrayOwn_prototypeKey {α : Type*} (length : Number → α) (items : List α) :
    arrayOwn length items prototypeKey = none := by
  rw [arrayOwn, if_neg (by decide)]
  have hnone : (List.range items.length).find? (fun i => decide (Nat.repr i = prototypeKey)) =
      none := by
    rw [List.find?_eq_none]
    intro i _ h
    have hdigits := Encoding.isDigit_of_mem_repr (n := i) (c := '_')
    rw [of_decide_eq_true h] at hdigits
    exact absurd (hdigits (by decide)) (by decide)
  rw [hnone]
  rfl

theorem arrayOwn_empty {α : Type*} (length : Number → α) (items : List α) :
    arrayOwn length items "" = none := by
  rw [arrayOwn, if_neg (by decide)]
  have hnone : (List.range items.length).find? (fun i => decide (Nat.repr i = "")) = none := by
    rw [List.find?_eq_none]
    intro i _ h
    exact absurd (of_decide_eq_true h) Nat.repr_ne_empty
  rw [hnone]
  rfl

/-- A record without the key `__proto__` has no such property. -/
theorem lookupEntry_prototypeKey : ∀ {fields : List (String × AttributeValue)},
    PrototypeFreeFields fields → OrderedMap.lookupEntry prototypeKey fields = none
  | [], _ => rfl
  | (key, value) :: fields, h => by
    rw [OrderedMap.lookupEntry, if_neg h.1, lookupEntry_prototypeKey h.2.2]

theorem AttributeValue.PrototypeFreeFields.lookup :
    ∀ {fields : List (String × AttributeValue)} {key : String} {value : AttributeValue},
    PrototypeFreeFields fields →
    OrderedMap.lookupEntry key fields = some value → value.PrototypeFree
  | (key', value') :: fields, key, value, h, hvalue => by
    rw [OrderedMap.lookupEntry] at hvalue
    split at hvalue
    · rw [← Option.some.inj hvalue]
      exact h.2.1
    · exact PrototypeFreeFields.lookup h.2.2 hvalue

theorem AttributeValue.PrototypeFreeItems.mem :
    ∀ {items : List AttributeValue} {item : AttributeValue},
    PrototypeFreeItems items → item ∈ items → item.PrototypeFree
  | first :: items, item, h, hmem => by
    rcases List.mem_cons.mp hmem with rfl | hrest
    · exact h.1
    · exact PrototypeFreeItems.mem h.2 hrest

theorem AttributeValue.PrototypeFreeItems.arrayOwn {items : List AttributeValue} {key : String}
    {value : AttributeValue} (h : PrototypeFreeItems items)
    (hvalue : Authorization.arrayOwn .number items key = some value) : value.PrototypeFree := by
  unfold Authorization.arrayOwn at hvalue
  split at hvalue
  · rw [← Option.some.inj hvalue]
    trivial
  · obtain ⟨i, -, hitem⟩ := Option.bind_eq_some_iff.mp hvalue
    exact h.mem (List.mem_of_getElem? hitem)

/-- Own properties of a value without the key `__proto__` are without it too. -/
theorem prototypeFree_of_ownStep {value next : AttributeValue} {key : String}
    (h : value.PrototypeFree) (hstep : value.ownStep key = some next) : next.PrototypeFree := by
  cases value with
  | record fields => exact PrototypeFreeFields.lookup h hstep
  | array items => exact PrototypeFreeItems.arrayOwn h hstep
  | _ => cases hstep

/-- An own property is what is read. -/
theorem property_of_ownStep {value next : AttributeValue} {key : String}
    (h : value.PrototypeFree) (hstep : value.ownStep key = some next) :
    (Found.value value.toObject).isOpen = true ∧
      (Found.value value.toObject).property key = some (.value next.toObject) := by
  have hkey : key ≠ prototypeKey := by
    rintro rfl
    cases value with
    | record fields => cases hstep.symm.trans (lookupEntry_prototypeKey h)
    | array items => cases hstep.symm.trans (arrayOwn_prototypeKey _ items)
    | _ => cases hstep
  cases value with
  | record fields =>
    refine ⟨rfl, (if_neg hkey).trans ?_⟩
    change OrderedMap.lookupEntry key fields = some next at hstep
    rw [toObject, chainProperty, lookupEntry_toEntries, hstep]
    rfl
  | array items =>
    refine ⟨rfl, (if_neg hkey).trans ?_⟩
    change arrayOwn .number items key = some next at hstep
    rw [toObject, chainProperty, arrayOwn_toObjects, hstep]
    rfl
  | _ => cases hstep

/-- What a plain object inherits. -/
def inheritedProperty (key : String) : Option Found :=
  if key = prototypeKey then some .objectPrototype else objectMember key

theorem inheritedProperty_eq_none_iff (key : String) :
    inheritedProperty key = none ↔ key ∉ inheritedKeys := by
  have hkeys : key ∈ inheritedKeys ↔ key = prototypeKey ∨ key ∈ objectMethods := List.mem_cons
  rw [hkeys, not_or, inheritedProperty]
  by_cases hproto : key = prototypeKey
  · simp [hproto]
  · rw [if_neg hproto, objectMember]
    by_cases hmember : key ∈ objectMethods
    · simp [hmember]
    · simp [hproto, hmember]

/-- Reading a property of a record: an own one, or else an inherited one. -/
theorem property_record {fields : List (String × AttributeValue)}
    (hfree : PrototypeFreeFields fields) (key : String) :
    (Found.value (toObject (.record fields))).property key =
      match OrderedMap.lookupEntry key fields with
      | some value => some (.value value.toObject)
      | none => inheritedProperty key := by
  cases hown : OrderedMap.lookupEntry key fields with
  | some value =>
    have hstep : (AttributeValue.record fields).ownStep key = some value := hown
    have hrecord : (AttributeValue.record fields).PrototypeFree := hfree
    exact (property_of_ownStep hrecord hstep).2
  | none =>
    rw [Found.property, inheritedProperty]
    split
    · rfl
    · rw [toObject, chainProperty, lookupEntry_toEntries, hown]
      rfl

/-- Where there is no own property, an inherited member is read. -/
theorem follow_of_ownStep_none {value : AttributeValue} {key : String}
    (hstep : value.ownStep key = none) (hkey : key ≠ "") (segments : List String) :
    ((Found.value value.toObject).follow (key :: segments)).isSome =
      inheritedLeads value key segments := by
  cases value with
  | record fields =>
    change OrderedMap.lookupEntry key fields = none at hstep
    rw [inheritedLeads]
    by_cases hproto : key = prototypeKey
    · subst hproto
      have hproperty : (Found.value (toObject (.record fields))).property prototypeKey =
          some .objectPrototype := rfl
      rw [follow_property rfl hkey hproperty, follow_objectPrototype, if_pos rfl]
    · have hproperty : (Found.value (toObject (.record fields))).property key =
          objectMember key := by
        refine (if_neg hproto).trans ?_
        rw [toObject, chainProperty, lookupEntry_toEntries, hstep]
        rfl
      rw [follow_objectMember rfl hproperty hkey, if_neg hproto]
  | array items =>
    change arrayOwn .number items key = none at hstep
    rw [inheritedLeads]
    by_cases hproto : key = prototypeKey
    · subst hproto
      have hproperty : (Found.value (toObject (.array items))).property prototypeKey =
          some .arrayPrototype := rfl
      rw [follow_property rfl hkey hproperty, follow_arrayPrototype, if_pos rfl]
    · have hproperty : (Found.value (toObject (.array items))).property key =
          memberOf arrayMethods key := by
        refine (if_neg hproto).trans ?_
        rw [toObject, chainProperty, arrayOwn_toObjects, hstep]
        rfl
      rw [follow_memberOf rfl hproperty hkey, if_neg hproto]
  | _ => exact follow_of_closed rfl _

/-- Where the path stays in own properties, what they lead to is read. -/
theorem follow_of_staysOwn : ∀ {segments : List String} {value : AttributeValue},
    value.PrototypeFree → StaysOwn value segments →
    (Found.value value.toObject).follow segments =
      (ownWalk value segments).map fun next => .value next.toObject
  | [], _, _, _ => rfl
  | segment :: segments, value, hfree, hstays => by
    by_cases hempty : segment = ""
    · rw [hempty, follow_empty, ownWalk, if_pos rfl]
      rfl
    rw [ownWalk, if_neg hempty]
    rw [StaysOwn] at hstays
    cases hstep : value.ownStep segment with
    | none =>
      rw [hstep] at hstays
      have hnone := follow_of_ownStep_none hstep hempty segments
      rw [hstays, Option.isSome_eq_false_iff, Option.isNone_iff_eq_none] at hnone
      rw [hnone]
      rfl
    | some next =>
      rw [hstep] at hstays
      obtain ⟨hopen, hproperty⟩ := property_of_ownStep hfree hstep
      rw [follow_property hopen hempty hproperty]
      exact follow_of_staysOwn (prototypeFree_of_ownStep hfree hstep)
        (hstays.resolve_left hempty)

/-- Where it does not, something is read, although own properties lead nowhere. -/
theorem follow_of_not_staysOwn : ∀ {segments : List String} {value : AttributeValue},
    value.PrototypeFree → ¬StaysOwn value segments →
    ownWalk value segments = none ∧ ((Found.value value.toObject).follow segments).isSome = true
  | [], _, _, hleaves => absurd trivial hleaves
  | segment :: segments, value, hfree, hleaves => by
    rw [StaysOwn] at hleaves
    cases hstep : value.ownStep segment with
    | none =>
      rw [hstep] at hleaves
      have hleads : inheritedLeads value segment segments = true :=
        eq_true_of_ne_false hleaves
      have hempty : segment ≠ "" := by
        rintro rfl
        rw [inheritedLeads_empty] at hleads
        cases hleads
      rw [ownWalk, if_neg hempty, hstep, follow_of_ownStep_none hstep hempty]
      exact ⟨rfl, hleads⟩
    | some next =>
      rw [hstep] at hleaves
      obtain ⟨hempty, hnext⟩ := not_or.mp hleaves
      obtain ⟨hopen, hproperty⟩ := property_of_ownStep hfree hstep
      rw [ownWalk, if_neg hempty, hstep, follow_property hopen hempty hproperty]
      exact follow_of_not_staysOwn (prototypeFree_of_ownStep hfree hstep) hnext

end Reading

/-! ## Contexts of supplied bags -/

/-- The bags that `AttributeContext.create` is given. -/
structure SuppliedBags where
  bag : AttributeBagName → List (String × Option AttributeValue)
  nodup : ∀ name, ((bag name).map Prod.fst).Nodup
  distinct : ∀ name, ∀ entry ∈ bag name, ∀ value, entry.2 = some value → value.Distinct

namespace SuppliedBags

/-- The defined entries of a bag, in the order of `Object.entries`. -/
def defined (bags : SuppliedBags) (name : AttributeBagName) : List (String × AttributeValue) :=
  (bags.bag name).filterMap fun entry => entry.2.map fun value => (entry.1, value)

/-- `AttributeContext.create(bags)`. -/
def create (bags : SuppliedBags) : Except ThrownError ObjectContext :=
  ObjectContext.ofEntries fun name => AttributeValue.toEntries (bags.defined name)

/-- What a path leads to in a bag through own properties. -/
def ownGet (bags : SuppliedBags) (name : AttributeBagName) (path : String) :
    Option AttributeValue :=
  (AttributeValue.record (bags.defined name)).ownWalk (ObjectContext.segmentsOf path)

/-- The own property of a bag that a path addresses. -/
def ownResolve (bags : SuppliedBags) (path : String) : Option AttributeValue :=
  (addressOf path).bind fun address => OrderedMap.lookupEntry address.2 (bags.defined address.1)

/-- No key at any depth is `__proto__`. -/
def PrototypeFree (bags : SuppliedBags) : Prop :=
  ∀ name, (AttributeValue.record (bags.defined name)).PrototypeFree

/-- The path does not leave own properties for an inherited member. -/
def GetStaysOwn (bags : SuppliedBags) (name : AttributeBagName) (path : String) : Prop :=
  StaysOwn (.record (bags.defined name)) (ObjectContext.segmentsOf path)

/-- The path does not address an inherited member. -/
def ResolveStaysOwn (bags : SuppliedBags) (path : String) : Prop :=
  ∀ name key, addressOf path = some (name, key) →
    OrderedMap.lookupEntry key (bags.defined name) = none → key ∉ inheritedKeys

/-- Lookups find what was supplied, and nothing else. -/
def LooksUpOwn (bags : SuppliedBags) (name : AttributeBagName) (path resolvePath : String) :
    Prop :=
  ∃ context, bags.create = .ok context ∧
    (∀ found, context.get name path = some found ↔
      ∃ value, bags.ownGet name path = some value ∧ found = .value value.toObject) ∧
    (∀ found, context.resolve resolvePath = some found ↔
      ∃ value, bags.ownResolve resolvePath = some value ∧ found = .value value.toObject) ∧
    ∃ copies, context.toBags = .ok copies ∧
      ∀ name, copies.bag name = .object (AttributeValue.toEntries (bags.defined name)) none

theorem defined_nodup (bags : SuppliedBags) (name : AttributeBagName) :
    ((bags.defined name).map Prod.fst).Nodup := by
  refine List.Nodup.sublist ?_ (bags.nodup name)
  unfold defined
  induction bags.bag name with
  | nil => exact List.Sublist.refl []
  | cons entry entries ih =>
    obtain ⟨key, value⟩ := entry
    cases value with
    | none => exact ih.cons key
    | some value => exact ih.cons_cons key

theorem distinctFields_defined (bags : SuppliedBags) (name : AttributeBagName) :
    AttributeValue.DistinctFields (bags.defined name) := by
  have h := bags.distinct name
  unfold defined
  revert h
  induction bags.bag name with
  | nil => exact fun _ => trivial
  | cons entry entries ih =>
    intro h
    have hrest := ih fun entry hmem => h entry (List.mem_cons_of_mem _ hmem)
    obtain ⟨key, value⟩ := entry
    cases value with
    | none => exact hrest
    | some value => exact ⟨h (key, some value) List.mem_cons_self value rfl, hrest⟩

end SuppliedBags

/-- A context is made of the copies of its bags. -/
theorem ObjectContext.ofEntries_eq_ok_iff
    {entries : AttributeBagName → List (String × ObjectValue)} {context : ObjectContext} :
    ofEntries entries = .ok context ↔
      ∀ name, ObjectValue.cloneBag (entries name) = .ok (context.bag name) := by
  constructor
  · intro h
    unfold ofEntries at h
    obtain ⟨subject, hsubject, h⟩ := bind_eq_ok h
    obtain ⟨resource, hresource, h⟩ := bind_eq_ok h
    obtain ⟨action, haction, h⟩ := bind_eq_ok h
    obtain ⟨environment, henvironment, h⟩ := bind_eq_ok h
    rw [← Except.ok.inj h]
    intro name
    cases name
    · exact hsubject
    · exact hresource
    · exact haction
    · exact henvironment
  · intro h
    rw [ofEntries, h .subject, h .resource, h .action, h .environment]
    rfl

/-- Reading by the segments of a path; the empty path has an empty segment, and leads nowhere. -/
theorem ObjectContext.get_eq_follow (context : ObjectContext) (name : AttributeBagName)
    (path : String) :
    context.get name path = (Found.value (context.bag name)).follow (segmentsOf path) := by
  rw [get]
  split
  · rename_i hempty
    subst hempty
    exact (follow_empty _ []).symm
  · rfl

/-- The context whose bags are records of supplied values. -/
def ObjectContext.ofFields (fields : AttributeBagName → List (String × AttributeValue)) :
    ObjectContext where
  subject := AttributeValue.toObject (.record (fields .subject))
  resource := AttributeValue.toObject (.record (fields .resource))
  action := AttributeValue.toObject (.record (fields .action))
  environment := AttributeValue.toObject (.record (fields .environment))

section OfFields

variable {fields : AttributeBagName → List (String × AttributeValue)}

theorem ObjectContext.bag_ofFields (fields : AttributeBagName → List (String × AttributeValue))
    (name : AttributeBagName) :
    (ofFields fields).bag name = AttributeValue.toObject (.record (fields name)) := by
  cases name <;> rfl

/-- Without the key `__proto__`, copies of the bags are the bags. -/
theorem ObjectContext.ofEntries_toEntries
    (hdistinct : ∀ name, (AttributeValue.record (fields name)).Distinct)
    (hfree : ∀ name, (AttributeValue.record (fields name)).PrototypeFree) :
    ofEntries (fun name => AttributeValue.toEntries (fields name)) = .ok (ofFields fields) := by
  apply ofEntries_eq_ok_iff.mpr
  intro name
  rw [bag_ofFields]
  exact cloneEntries_toEntries (fields name) [] (hdistinct name).1 (hdistinct name).2 (hfree name)

/-- The context gives back the bags it was made of. -/
theorem ObjectContext.toBags_ofFields
    (hdistinct : ∀ name, (AttributeValue.record (fields name)).Distinct)
    (hfree : ∀ name, (AttributeValue.record (fields name)).PrototypeFree) :
    (ofFields fields).toBags = .ok (ofFields fields) := by
  have hentries : (fun name => ((ofFields fields).bag name).entries) = fun name =>
      AttributeValue.toEntries (fields name) := by
    funext name
    rw [bag_ofFields]
    rfl
  rw [toBags, hentries]
  exact ofEntries_toEntries hdistinct hfree

end OfFields

namespace SuppliedBags

variable {bags : SuppliedBags} {name : AttributeBagName} {path resolvePath : String}

/-- The context of bags without the key `__proto__`. -/
def context (bags : SuppliedBags) : ObjectContext := ObjectContext.ofFields bags.defined

theorem bag_context (bags : SuppliedBags) (name : AttributeBagName) :
    bags.context.bag name = AttributeValue.toObject (.record (bags.defined name)) :=
  ObjectContext.bag_ofFields bags.defined name

theorem distinct_defined (bags : SuppliedBags) (name : AttributeBagName) :
    (AttributeValue.record (bags.defined name)).Distinct :=
  ⟨bags.defined_nodup name, bags.distinctFields_defined name⟩

theorem create_of_prototypeFree (hfree : bags.PrototypeFree) : bags.create = .ok bags.context :=
  ObjectContext.ofEntries_toEntries bags.distinct_defined hfree

/-- What is given back has no property `__proto__`, so that none was supplied if all of it is. -/
theorem prototypeFree_of_looksUpOwn (h : bags.LooksUpOwn name path resolvePath) :
    bags.PrototypeFree := by
  obtain ⟨context, -, -, -, copies, hcopies, hexact⟩ := h
  intro name
  have hclone := ObjectContext.ofEntries_eq_ok_iff.mp hcopies name
  rw [hexact name] at hclone
  have hnothing : OwnsNoPrototypeEntries (([], none) : ObjectValue.Copy).1 := trivial
  have howns := ownsNoPrototype_of_cloneEntries _ hnothing hclone
  exact (ownsNoPrototypeEntries_toEntries (bags.defined name)).mp howns

theorem get_context_iff (hfree : bags.PrototypeFree) :
    (∀ found, bags.context.get name path = some found ↔
      ∃ value, bags.ownGet name path = some value ∧ found = .value value.toObject) ↔
    bags.GetStaysOwn name path := by
  rw [ObjectContext.get_eq_follow, bag_context]
  by_cases hstays : bags.GetStaysOwn name path
  · apply iff_of_true _ hstays
    intro found
    rw [follow_of_staysOwn (hfree name) hstays, Option.map_eq_some_iff]
    exact exists_congr fun value => and_congr Iff.rfl eq_comm
  · apply iff_of_false _ hstays
    intro h
    obtain ⟨hnone, hsome⟩ := follow_of_not_staysOwn (hfree name) hstays
    obtain ⟨found, hfound⟩ := Option.isSome_iff_exists.mp hsome
    obtain ⟨value, hvalue, -⟩ := (h found).mp hfound
    rw [ownGet, hnone] at hvalue
    cases hvalue

/-- Reading a property of the context: an own one, or else an inherited one. -/
theorem property_context (hfree : bags.PrototypeFree) (name : AttributeBagName) (key : String) :
    (Found.value (bags.context.bag name)).property key =
      match OrderedMap.lookupEntry key (bags.defined name) with
      | some value => some (.value value.toObject)
      | none => inheritedProperty key := by
  rw [bag_context]
  exact property_record (hfree name) key

theorem resolve_context_iff (hfree : bags.PrototypeFree) :
    (∀ found, bags.context.resolve resolvePath = some found ↔
      ∃ value, bags.ownResolve resolvePath = some value ∧ found = .value value.toObject) ↔
    bags.ResolveStaysOwn resolvePath := by
  rw [ObjectContext.resolve, ownResolve, ResolveStaysOwn]
  cases haddress : addressOf resolvePath with
  | none => simp
  | some address =>
    obtain ⟨name, key⟩ := address
    rw [Option.bind_some]
    change (∀ found, (Found.value (bags.context.bag name)).property key = some found ↔ _) ↔ _
    rw [property_context hfree]
    cases hown : OrderedMap.lookupEntry key (bags.defined name) with
    | some value =>
      apply iff_of_true
      · intro found
        simp [eq_comm]
      · intro name' key' heq hnone
        cases heq
        cases hown.symm.trans hnone
    | none =>
      constructor
      · intro h name' key' heq _
        cases heq
        rw [← inheritedProperty_eq_none_iff, Option.eq_none_iff_forall_ne_some]
        intro found hfound
        obtain ⟨value, hvalue, -⟩ := (h found).mp hfound
        cases hvalue
      · intro h found
        have hnone := (inheritedProperty_eq_none_iff key).mpr (h name key rfl hown)
        simp [hnone]

end SuppliedBags

/-- A record under the key `__proto__` is read through, although no own property leads there. -/
example :
    let fields := [("__proto__", AttributeValue.record [("role", .string "admin")])]
    let context := ObjectContext.ofEntries fun _ => AttributeValue.toEntries fields
    (∃ found, context = .ok found ∧
      found.get .subject "role" = some (.value (.string "admin"))) ∧
    (AttributeValue.record fields).ownWalk ["role"] = none :=
  ⟨⟨_, rfl, rfl⟩, rfl⟩

/-! ## The attributes that conditions are evaluated against -/

/-- What conditions find when they read a property. -/
def Resolved.toFound : Resolved → Found
  | .value actual => .value actual.toObject
  | .inherited key => if key = prototypeKey then .objectPrototype else .function key

/-- A bag without the key `__proto__` inside of its values is read as its object is. -/
theorem AttributeBag.property_toFound (bag : AttributeBag)
    (hfree : AttributeValue.PrototypeFreeFields bag.own.entries) (key : String) :
    (bag.property key).map Resolved.toFound =
      (Found.value (AttributeValue.toObject (.record bag.own.entries))).property key := by
  rw [property_record hfree, AttributeBag.property]
  change _ = match bag.own.get? key with
    | some value => some (Found.value value.toObject)
    | none => inheritedProperty key
  cases bag.own.get? key with
  | some value => rfl
  | none =>
    have hkeys : key ∈ inheritedKeys ↔ key = prototypeKey ∨ key ∈ objectMethods := List.mem_cons
    rw [inheritedProperty, objectMember]
    by_cases hproto : key = prototypeKey
    · rw [if_pos (hkeys.mpr (.inl hproto)), if_pos hproto, Option.map_some, Resolved.toFound,
        if_pos hproto]
    · by_cases hmember : key ∈ objectMethods
      · rw [if_pos (hkeys.mpr (.inr hmember)), if_neg hproto, if_pos hmember, Option.map_some,
          Resolved.toFound, if_neg hproto]
      · rw [if_neg (by rw [hkeys]; simp [hproto, hmember]), if_neg hproto, if_neg hmember]
        rfl

end Verixa.Authorization
