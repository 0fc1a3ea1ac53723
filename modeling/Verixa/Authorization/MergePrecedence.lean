import Verixa.Authorization.AttributeLookups
import Verixa.Authorization.AttributeResolutionPipeline

/-!
# Precedence among attribute providers

What stands at a path of the merged attributes is what the last provider set there that says
anything about it: a later provider hides it by a value at the path, or by a value at a proper
prefix of the path that is no record (`resolve_merges`).
-/

namespace Verixa.Authorization

/-! ## Merging supplied values -/

namespace AttributeValue

/-- The value is a record. -/
def isRecord : AttributeValue → Bool
  | .record _ => true
  | _ => false

mutual

/-- Merges records of supplied values. -/
def mergeFields (merged : List (String × AttributeValue)) :
    List (String × AttributeValue) → List (String × AttributeValue)
  | [] => merged
  | (key, value) :: later =>
    let oldValue := OrderedMap.lookupEntry key merged
    mergeFields (OrderedMap.upsertEntry key (overlaid oldValue value) merged) later

/-- Lays a supplied value over another. -/
def overlaid (oldValue : Option AttributeValue) : AttributeValue → AttributeValue
  | .record fields =>
    match oldValue with
    | some (.record earlier) => .record (mergeFields earlier fields)
    | _ => .record fields
  | value => value

end

/-- What stands at a path of keys; arrays are not entered. -/
def valueAt : AttributeValue → List String → Option AttributeValue
  | value, [] => some value
  | .record fields, key :: path =>
    (OrderedMap.lookupEntry key fields).bind fun next => valueAt next path
  | _, _ :: _ => none

/-- The value has something at the path, or at a proper prefix a value that is no record. -/
def Hides (value : AttributeValue) (path : List String) : Prop :=
  (value.valueAt path).isSome = true ∨
    ∃ before, before <+: path ∧ before ≠ path ∧
      ∃ other, value.valueAt before = some other ∧ other.isRecord = false

/-- Which record hides what stands at a path: by its own value of the first key. -/
theorem hides_cons_iff {fields : List (String × AttributeValue)} {key : String}
    {path : List String} :
    (AttributeValue.record fields).Hides (key :: path) ↔
      ∃ value, OrderedMap.lookupEntry key fields = some value ∧ value.Hides path := by
  constructor
  · rintro (hsome | ⟨before, hbefore, hproper, other, hother, hleaf⟩)
    · obtain ⟨found, hfound⟩ := Option.isSome_iff_exists.mp hsome
      obtain ⟨value, hvalue, hpath⟩ := Option.bind_eq_some_iff.mp hfound
      exact ⟨value, hvalue, .inl (Option.isSome_iff_exists.mpr ⟨found, hpath⟩)⟩
    · cases before with
      | nil =>
        rw [← Option.some.inj hother] at hleaf
        exact nomatch hleaf
      | cons key' before =>
        obtain ⟨rfl, hprefix⟩ := List.cons_prefix_cons.mp hbefore
        obtain ⟨value, hvalue, hpath⟩ := Option.bind_eq_some_iff.mp hother
        exact ⟨value, hvalue, .inr ⟨before, hprefix, fun heq => hproper (heq ▸ rfl), other, hpath,
          hleaf⟩⟩
  · rintro ⟨value, hvalue, hsome | ⟨before, hbefore, hproper, other, hother, hleaf⟩⟩
    · refine .inl ?_
      rw [valueAt, hvalue]
      exact hsome
    · refine .inr ⟨key :: before, List.cons_prefix_cons.mpr ⟨rfl, hbefore⟩, ?_, other, ?_, hleaf⟩
      · exact fun heq => hproper (List.cons.inj heq).2
      · rw [valueAt, hvalue]
        exact hother

/-- Looking a key up in merged records. -/
theorem lookupEntry_mergeFields : ∀ {later merged : List (String × AttributeValue)} (key : String),
    (later.map Prod.fst).Nodup →
    OrderedMap.lookupEntry key (mergeFields merged later) =
      match OrderedMap.lookupEntry key later with
      | some value => some (overlaid (OrderedMap.lookupEntry key merged) value)
      | none => OrderedMap.lookupEntry key merged
  | [], _, _, _ => rfl
  | (key', value) :: later, merged, key, hnodup => by
    obtain ⟨hnew, hrest⟩ := List.nodup_cons.mp hnodup
    rw [mergeFields, lookupEntry_mergeFields key hrest, OrderedMap.lookupEntry]
    by_cases hkey : key' = key
    · subst hkey
      have hnone : OrderedMap.lookupEntry key' later = none := by
        cases h : OrderedMap.lookupEntry key' later with
        | none => rfl
        | some other =>
          have hmem := (OrderedMap.lookupEntry_eq_some_iff hrest).mp h
          exact absurd (List.mem_map_of_mem hmem) hnew
      rw [hnone, if_pos rfl, OrderedMap.lookupEntry_upsertEntry]
      simp
    · rw [if_neg hkey, OrderedMap.lookupEntry_upsertEntry]
      simp [hkey]

/-- Below a value that is no record stands nothing. -/
theorem valueAt_cons_of_not_record {value : AttributeValue} (h : value.isRecord = false)
    (key : String) (path : List String) : value.valueAt (key :: path) = none := by
  cases value with
  | record fields => exact nomatch h
  | _ => rfl

/-- A value that is no record hides all that stands below it. -/
theorem hides_of_not_record {value : AttributeValue} (h : value.isRecord = false)
    (path : List String) : value.Hides path := by
  cases path with
  | nil => exact .inl rfl
  | cons key path =>
    have hproper : [] ≠ key :: path := (List.cons_ne_nil key path).symm
    exact .inr ⟨[], List.nil_prefix, hproper, value, rfl, h⟩

/-- A value that is no record replaces what it is laid over. -/
theorem overlaid_of_not_record {value : AttributeValue} (h : value.isRecord = false)
    (oldValue : Option AttributeValue) : overlaid oldValue value = value := by
  cases value with
  | record fields => exact nomatch h
  | _ => rfl

/-- What is laid over a value that is no record stays as it is. -/
theorem overlaid_of_old_not_record {oldValue : AttributeValue} (h : oldValue.isRecord = false)
    (value : AttributeValue) : overlaid (some oldValue) value = value := by
  cases value with
  | record fields =>
    cases oldValue with
    | record earlier => exact nomatch h
    | _ => rfl
  | _ => rfl

theorem exists_fields_of_isRecord {value : AttributeValue} (h : value.isRecord = true) :
    ∃ fields, value = .record fields := by
  cases value with
  | record fields => exact ⟨fields, rfl⟩
  | _ => exact nomatch h

theorem isRecord_overlaid (oldValue : Option AttributeValue) (value : AttributeValue) :
    (overlaid oldValue value).isRecord = value.isRecord := by
  cases value with
  | record fields =>
    rcases oldValue with _ | old
    · rfl
    · cases old <;> rfl
  | _ => rfl

/-- The values of a record have distinct keys. -/
theorem DistinctFields.lookup : ∀ {fields : List (String × AttributeValue)} {key : String}
    {value : AttributeValue}, DistinctFields fields →
    OrderedMap.lookupEntry key fields = some value → value.Distinct
  | (key', value') :: fields, key, value, h, hvalue => by
    rw [OrderedMap.lookupEntry] at hvalue
    split at hvalue
    · rw [← Option.some.inj hvalue]
      exact h.1
    · exact DistinctFields.lookup h.2 hvalue

/-- What is no record in merged records, by induction on the path: it stands in the later ones, or
in the earlier ones and is not hidden. -/
theorem valueAt_mergeFields_iff : ∀ {path : List String}
    {earlier later : List (String × AttributeValue)} {value : AttributeValue}, path ≠ [] →
    (AttributeValue.record later).Distinct → value.isRecord = false →
    ((AttributeValue.record (mergeFields earlier later)).valueAt path = some value ↔
      (AttributeValue.record later).valueAt path = some value ∨
        (AttributeValue.record earlier).valueAt path = some value ∧
          ¬(AttributeValue.record later).Hides path)
  | [], _, _, _, hpath, _, _ => absurd rfl hpath
  | key :: path, earlier, later, value, _, hdistinct, hleaf => by
    rw [hides_cons_iff, valueAt, valueAt, valueAt, lookupEntry_mergeFields key hdistinct.1]
    cases hlater : OrderedMap.lookupEntry key later with
    | none => simp
    | some other =>
      have hdistinct' : other.Distinct := DistinctFields.lookup hdistinct.2 hlater
      simp only [Option.bind_some, Option.some.injEq, exists_eq_left']
      cases path with
      | nil =>
        have hhides : other.Hides [] := .inl rfl
        rw [valueAt, valueAt, Option.some.injEq, Option.some.injEq, or_iff_left]
        · constructor
          · rintro rfl
            rw [isRecord_overlaid] at hleaf
            exact (overlaid_of_not_record hleaf _).symm
          · rintro rfl
            exact overlaid_of_not_record hleaf _
        · exact fun h => h.2 hhides
      | cons key' path =>
        cases hrecord : other.isRecord with
        | false =>
          rw [overlaid_of_not_record hrecord, or_iff_left]
          exact fun h => h.2 (hides_of_not_record hrecord _)
        | true =>
          obtain ⟨fields, rfl⟩ := exists_fields_of_isRecord hrecord
          have hpath : key' :: path ≠ [] := List.cons_ne_nil key' path
          cases hearlier : OrderedMap.lookupEntry key earlier with
          | none =>
            rw [Option.bind_none, or_iff_left fun h => nomatch h.1]
            rfl
          | some old =>
            cases hold : old.isRecord with
            | true =>
              obtain ⟨fields', rfl⟩ := exists_fields_of_isRecord hold
              exact valueAt_mergeFields_iff hpath hdistinct' hleaf
            | false =>
              rw [Option.bind_some, valueAt_cons_of_not_record hold,
                overlaid_of_old_not_record hold, or_iff_left fun h => nomatch h.1]

/-! ## What merging keeps -/

theorem distinctFields_upsertEntry {key : String} {value : AttributeValue}
    (hvalue : value.Distinct) : ∀ {fields : List (String × AttributeValue)},
    DistinctFields fields → DistinctFields (OrderedMap.upsertEntry key value fields)
  | [], _ => ⟨hvalue, trivial⟩
  | (key', value') :: fields, h => by
    rw [OrderedMap.upsertEntry]
    split
    · exact ⟨hvalue, h.2⟩
    · exact ⟨h.1, distinctFields_upsertEntry hvalue h.2⟩

theorem prototypeFreeFields_upsertEntry {key : String} {value : AttributeValue}
    (hkey : key ≠ prototypeKey) (hvalue : value.PrototypeFree) :
    ∀ {fields : List (String × AttributeValue)}, PrototypeFreeFields fields →
      PrototypeFreeFields (OrderedMap.upsertEntry key value fields)
  | [], _ => ⟨hkey, hvalue, trivial⟩
  | (key', value') :: fields, h => by
    rw [OrderedMap.upsertEntry]
    split
    · exact ⟨hkey, hvalue, h.2.2⟩
    · exact ⟨h.1, h.2.1, prototypeFreeFields_upsertEntry hkey hvalue h.2.2⟩

mutual

theorem distinct_mergeFields : ∀ {later earlier : List (String × AttributeValue)},
    (AttributeValue.record later).Distinct → (AttributeValue.record earlier).Distinct →
    (AttributeValue.record (mergeFields earlier later)).Distinct
  | [], _, _, hearlier => hearlier
  | (key, value) :: later, earlier, hlater, hearlier => by
    have hvalue : (overlaid (OrderedMap.lookupEntry key earlier) value).Distinct :=
      distinct_overlaid hlater.2.1 fun old hold => DistinctFields.lookup hearlier.2 hold
    have hrest : (AttributeValue.record later).Distinct :=
      ⟨(List.nodup_cons.mp hlater.1).2, hlater.2.2⟩
    rw [mergeFields]
    exact distinct_mergeFields hrest
      ⟨OrderedMap.nodup_upsertEntry hearlier.1, distinctFields_upsertEntry hvalue hearlier.2⟩

theorem distinct_overlaid : ∀ {value : AttributeValue} {oldValue : Option AttributeValue},
    value.Distinct → (∀ old, oldValue = some old → old.Distinct) →
    (overlaid oldValue value).Distinct
  | .record _, some (.record _), hvalue, hold =>
    distinct_mergeFields hvalue (hold _ rfl)
  | .record _, none, hvalue, _ => hvalue
  | .record _, some (.string _), hvalue, _ | .record _, some (.number _), hvalue, _
  | .record _, some (.boolean _), hvalue, _ | .record _, some (.date _), hvalue, _
  | .record _, some (.array _), hvalue, _ => hvalue
  | .string _, _, hvalue, _ | .number _, _, hvalue, _ | .boolean _, _, hvalue, _
  | .date _, _, hvalue, _ | .array _, _, hvalue, _ => hvalue

end

mutual

theorem prototypeFree_mergeFields : ∀ {later earlier : List (String × AttributeValue)},
    PrototypeFreeFields later → PrototypeFreeFields earlier →
    PrototypeFreeFields (mergeFields earlier later)
  | [], _, _, hearlier => hearlier
  | (key, value) :: later, earlier, hlater, hearlier => by
    have hvalue : (overlaid (OrderedMap.lookupEntry key earlier) value).PrototypeFree :=
      prototypeFree_overlaid hlater.2.1 fun old hold => PrototypeFreeFields.lookup hearlier hold
    rw [mergeFields]
    exact prototypeFree_mergeFields hlater.2.2
      (prototypeFreeFields_upsertEntry hlater.1 hvalue hearlier)

theorem prototypeFree_overlaid : ∀ {value : AttributeValue} {oldValue : Option AttributeValue},
    value.PrototypeFree → (∀ old, oldValue = some old → old.PrototypeFree) →
    (overlaid oldValue value).PrototypeFree
  | .record _, some (.record _), hvalue, hold =>
    prototypeFree_mergeFields hvalue (hold _ rfl)
  | .record _, none, hvalue, _ => hvalue
  | .record _, some (.string _), hvalue, _ | .record _, some (.number _), hvalue, _
  | .record _, some (.boolean _), hvalue, _ | .record _, some (.date _), hvalue, _
  | .record _, some (.array _), hvalue, _ => hvalue
  | .string _, _, hvalue, _ | .number _, _, hvalue, _ | .boolean _, _, hvalue, _
  | .date _, _, hvalue, _ | .array _, _, hvalue, _ => hvalue

end

/-! ## The objects of merged values -/

theorem upsertEntry_toEntries (key : String) (value : AttributeValue)
    (fields : List (String × AttributeValue)) :
    OrderedMap.upsertEntry key value.toObject (toEntries fields) =
      toEntries (OrderedMap.upsertEntry key value fields) := by
  induction fields with
  | nil => rfl
  | cons field fields ih =>
    obtain ⟨key', value'⟩ := field
    rw [toEntries, OrderedMap.upsertEntry, OrderedMap.upsertEntry]
    split
    · rw [toEntries]
    · rw [ih, toEntries]

mutual

/-- The pipeline merges the objects of supplied values as the values are merged. -/
theorem mergeRecords_toEntries : ∀ later earlier : List (String × AttributeValue),
    mergeRecords (toEntries earlier) (toEntries later) = toEntries (mergeFields earlier later)
  | [], _ => rfl
  | (key, value) :: later, earlier => by
    rw [toEntries, mergeRecords, mergeFields, lookupEntry_toEntries, overlay_toObject value,
      upsertEntry_toEntries, mergeRecords_toEntries later]

theorem overlay_toObject : ∀ (value : AttributeValue) (oldValue : Option AttributeValue),
    overlay (oldValue.map toObject) value.toObject = (overlaid oldValue value).toObject
  | .record fields, some (.record earlier) => by
    have hrecords : ((toObject (.record earlier)).isRecord &&
        (toObject (.record fields)).isRecord) = true := rfl
    rw [Option.map_some, toObject, toObject, overlay]
    exact (if_pos hrecords).trans
      (congrArg (ObjectValue.object · none) (mergeRecords_toEntries fields earlier))
  | .record _, none => rfl
  | .record _, some (.string _) | .record _, some (.number _) | .record _, some (.boolean _)
  | .record _, some (.date _) | .record _, some (.array _) => rfl
  | .string _, _ | .number _, _ | .boolean _, _ | .date _, _ | .array _, _ => rfl

end

end AttributeValue

/-! ## Paths of objects -/

namespace ObjectValue

/-- What stands at a path of own keys; arrays are not entered. -/
def valueAt : ObjectValue → List String → Option ObjectValue
  | value, [] => some value
  | .object own _, key :: path =>
    (OrderedMap.lookupEntry key own).bind fun next => valueAt next path
  | _, _ :: _ => none

/-- The value has something at the path, or at a proper prefix a value that is no record. -/
def Hides (value : ObjectValue) (path : List String) : Prop :=
  (value.valueAt path).isSome = true ∨
    ∃ before, before <+: path ∧ before ≠ path ∧
      ∃ other, value.valueAt before = some other ∧ other.isRecord = false

theorem isRecord_toObject (value : AttributeValue) :
    value.toObject.isRecord = value.isRecord := by
  cases value <;> rfl

theorem valueAt_toObject : ∀ (path : List String) (value : AttributeValue),
    value.toObject.valueAt path = (value.valueAt path).map AttributeValue.toObject
  | [], _ => rfl
  | key :: path, .record fields => by
    rw [AttributeValue.toObject, valueAt, AttributeValue.valueAt, lookupEntry_toEntries]
    cases OrderedMap.lookupEntry key fields with
    | none => rfl
    | some next => exact valueAt_toObject path next
  | _ :: _, .string _ | _ :: _, .number _ | _ :: _, .boolean _ | _ :: _, .date _
  | _ :: _, .array _ => rfl

theorem hides_toObject (path : List String) (value : AttributeValue) :
    value.toObject.Hides path ↔ value.Hides path := by
  unfold Hides AttributeValue.Hides
  simp only [valueAt_toObject, Option.isSome_map, Option.map_eq_some_iff]
  apply or_congr Iff.rfl
  apply exists_congr
  intro before
  refine and_congr Iff.rfl (and_congr Iff.rfl ?_)
  constructor
  · rintro ⟨_, ⟨other, hother, rfl⟩, hleaf⟩
    exact ⟨other, hother, (isRecord_toObject other).symm.trans hleaf⟩
  · rintro ⟨other, hother, hleaf⟩
    exact ⟨_, ⟨other, hother, rfl⟩, (isRecord_toObject other).trans hleaf⟩

/-- What is no record in the objects of merged records. -/
theorem valueAt_mergeFields_iff {path : List String}
    {earlier later : List (String × AttributeValue)} {value : ObjectValue} (hpath : path ≠ [])
    (hdistinct : (AttributeValue.record later).Distinct) (hleaf : value.isRecord = false) :
    (AttributeValue.record (AttributeValue.mergeFields earlier later)).toObject.valueAt path =
        some value ↔
      (AttributeValue.record later).toObject.valueAt path = some value ∨
        (AttributeValue.record earlier).toObject.valueAt path = some value ∧
          ¬(AttributeValue.record later).toObject.Hides path := by
  simp only [valueAt_toObject, hides_toObject, Option.map_eq_some_iff]
  constructor
  · rintro ⟨actual, hactual, rfl⟩
    rw [isRecord_toObject] at hleaf
    rcases (AttributeValue.valueAt_mergeFields_iff hpath hdistinct hleaf).mp hactual with
      hlater | ⟨hearlier, hides⟩
    · exact .inl ⟨actual, hlater, rfl⟩
    · exact .inr ⟨⟨actual, hearlier, rfl⟩, hides⟩
  · rintro (⟨actual, hlater, rfl⟩ | ⟨⟨actual, hearlier, rfl⟩, hides⟩)
    · rw [isRecord_toObject] at hleaf
      exact ⟨actual, (AttributeValue.valueAt_mergeFields_iff hpath hdistinct hleaf).mpr
        (.inl hlater), rfl⟩
    · rw [isRecord_toObject] at hleaf
      exact ⟨actual, (AttributeValue.valueAt_mergeFields_iff hpath hdistinct hleaf).mpr
        (.inr ⟨hearlier, hides⟩), rfl⟩

end ObjectValue

/-! ## The run of the pipeline -/

section Run

variable {ε : Type}

namespace AttributeProvider

/-- The context that the provider returns, if any, is made of bags without the key `__proto__`. -/
def ReturnsPlain (provider : AttributeProvider ε) (request : AttributeResolutionRequest) : Prop :=
  ∀ context, provider.resolve request = .ok context →
    ∃ bags : SuppliedBags, bags.PrototypeFree ∧ bags.create = .ok context

/-- The failure of a required provider. -/
def closedFailure (request : AttributeResolutionRequest) (provider : AttributeProvider ε) :
    Option (AttributeProviderResolutionError ε) :=
  match provider.resolve request, provider.failureMode with
  | .error cause, .failClosed => some { provider := provider.name, cause }
  | _, _ => none

/-- The failure of an optional provider. -/
def openFailure (request : AttributeResolutionRequest) (provider : AttributeProvider ε) :
    Option (AttributeProviderFailure ε) :=
  match provider.resolve request, provider.failureMode with
  | .error error, .failOpen => some { provider := provider.name, error }
  | _, _ => none

/-- The provider succeeds and sets a value at a path of a bag. -/
def Sets (provider : AttributeProvider ε) (request : AttributeResolutionRequest)
    (name : AttributeBagName) (path : List String) (value : ObjectValue) : Prop :=
  ∃ context, provider.resolve request = .ok context ∧
    (context.bag name).valueAt path = some value

/-- The provider succeeds and sets something at a path, or at a proper prefix of it a value that is
no record. -/
def Hides (provider : AttributeProvider ε) (request : AttributeResolutionRequest)
    (name : AttributeBagName) (path : List String) : Prop :=
  ∃ context, provider.resolve request = .ok context ∧ (context.bag name).Hides path

section Outcomes

variable {provider : AttributeProvider ε} {request : AttributeResolutionRequest}

theorem sets_iff_of_ok {context : ObjectContext} (h : provider.resolve request = .ok context)
    {name : AttributeBagName} {path : List String} {value : ObjectValue} :
    provider.Sets request name path value ↔ (context.bag name).valueAt path = some value := by
  simp [Sets, h]

theorem hides_iff_of_ok {context : ObjectContext} (h : provider.resolve request = .ok context)
    {name : AttributeBagName} {path : List String} :
    provider.Hides request name path ↔ (context.bag name).Hides path := by
  simp [Hides, h]

theorem not_sets_of_error {error : ε} (h : provider.resolve request = .error error)
    (name : AttributeBagName) (path : List String) (value : ObjectValue) :
    ¬provider.Sets request name path value := by
  simp [Sets, h]

theorem not_hides_of_error {error : ε} (h : provider.resolve request = .error error)
    (name : AttributeBagName) (path : List String) : ¬provider.Hides request name path := by
  simp [Hides, h]

end Outcomes

end AttributeProvider

/-- Some provider sets the value at the path, and no later one hides it. -/
def Prevails (providers : List (AttributeProvider ε)) (request : AttributeResolutionRequest)
    (name : AttributeBagName) (path : List String) (value : ObjectValue) : Prop :=
  ∃ before provider after, providers = before ++ provider :: after ∧
    provider.Sets request name path value ∧ ∀ later ∈ after, ¬later.Hides request name path

theorem prevails_cons_iff {provider : AttributeProvider ε} {providers : List (AttributeProvider ε)}
    {request : AttributeResolutionRequest} {name : AttributeBagName} {path : List String}
    {value : ObjectValue} :
    Prevails (provider :: providers) request name path value ↔
      Prevails providers request name path value ∨
        provider.Sets request name path value ∧
          ∀ later ∈ providers, ¬later.Hides request name path := by
  constructor
  · rintro ⟨before, other, after, heq, hsets, hafter⟩
    cases before with
    | nil =>
      obtain ⟨rfl, rfl⟩ := List.cons.inj heq
      exact .inr ⟨hsets, hafter⟩
    | cons first before =>
      exact .inl ⟨before, other, after, (List.cons.inj heq).2, hsets, hafter⟩
  · rintro (⟨before, other, after, rfl, hsets, hafter⟩ | ⟨hsets, hafter⟩)
    · exact ⟨provider :: before, other, after, rfl, hsets, hafter⟩
    · exact ⟨[], provider, providers, rfl, hsets, hafter⟩

/-- Bags without the key `__proto__`. -/
structure PlainFields (fields : AttributeBagName → List (String × AttributeValue)) : Prop where
  distinct : ∀ name, (AttributeValue.record (fields name)).Distinct
  free : ∀ name, (AttributeValue.record (fields name)).PrototypeFree

/-- The bags after another provider. -/
def mergedWith (fields later : AttributeBagName → List (String × AttributeValue))
    (name : AttributeBagName) : List (String × AttributeValue) :=
  AttributeValue.mergeFields (fields name) (later name)

theorem PlainFields.mergedWith {fields later : AttributeBagName → List (String × AttributeValue)}
    (h : PlainFields fields) (hlater : PlainFields later) :
    PlainFields (mergedWith fields later) where
  distinct name := AttributeValue.distinct_mergeFields (hlater.distinct name) (h.distinct name)
  free name := AttributeValue.prototypeFree_mergeFields (hlater.free name) (h.free name)

/-- The context that a provider returns. -/
theorem AttributeProvider.ReturnsPlain.exists_fields {provider : AttributeProvider ε}
    {request : AttributeResolutionRequest} (h : provider.ReturnsPlain request)
    {context : ObjectContext} (hcontext : provider.resolve request = .ok context) :
    ∃ later, PlainFields later ∧ context = ObjectContext.ofFields later := by
  obtain ⟨bags, hfree, hcreate⟩ := h context hcontext
  rw [SuppliedBags.create_of_prototypeFree hfree] at hcreate
  exact ⟨bags.defined, ⟨bags.distinct_defined, hfree⟩, (Except.ok.inj hcreate).symm⟩

namespace AttributeResolutionPipeline

variable {request : AttributeResolutionRequest}
  {fields : AttributeBagName → List (String × AttributeValue)}
  {failures : List (AttributeProviderFailure ε)} {provider : AttributeProvider ε}
  {providers : List (AttributeProvider ε)}

/-- The run over bags of supplied values. -/
def runFrom (request : AttributeResolutionRequest)
    (fields : AttributeBagName → List (String × AttributeValue))
    (failures : List (AttributeProviderFailure ε)) (providers : List (AttributeProvider ε)) :
    Except (ResolutionError ε) (AttributeResolutionResult ε) :=
  resolveFrom request (fun name => AttributeValue.toEntries (fields name)) failures providers

theorem runFrom_nil (h : PlainFields fields) :
    runFrom request fields failures [] =
      .ok { context := ObjectContext.ofFields fields, failures } := by
  rw [runFrom, resolveFrom, ObjectContext.ofEntries_toEntries h.distinct h.free]

/-- A provider that succeeds. -/
theorem runFrom_cons_of_ok {later : AttributeBagName → List (String × AttributeValue)}
    (hlater : PlainFields later)
    (hresolve : provider.resolve request = .ok (ObjectContext.ofFields later)) :
    runFrom request fields failures (provider :: providers) =
      runFrom request (mergedWith fields later) failures providers := by
  have hmerged : (fun name => mergeRecords (AttributeValue.toEntries (fields name))
      ((ObjectContext.ofFields later).bag name).entries) = fun name =>
      AttributeValue.toEntries (mergedWith fields later name) := by
    funext name
    rw [ObjectContext.bag_ofFields]
    exact AttributeValue.mergeRecords_toEntries (later name) (fields name)
  rw [runFrom, runFrom, resolveFrom, hresolve]
  dsimp only
  rw [ObjectContext.toBags_ofFields hlater.distinct hlater.free]
  dsimp only
  rw [hmerged]

/-- An optional provider that fails. -/
theorem runFrom_cons_of_open {error : ε} (hresolve : provider.resolve request = .error error)
    (hopen : provider.failureMode = .failOpen) :
    runFrom request fields failures (provider :: providers) =
      runFrom request fields (failures ++ [{ provider := provider.name, error }]) providers := by
  rw [runFrom, runFrom, resolveFrom, hresolve]
  dsimp only
  rw [hopen]

/-- A required provider that fails. -/
theorem runFrom_cons_of_closed {cause : ε} (hresolve : provider.resolve request = .error cause)
    (hclosed : provider.failureMode = .failClosed) :
    runFrom request fields failures (provider :: providers) =
      .error (.provider { provider := provider.name, cause }) := by
  rw [runFrom, resolveFrom, hresolve]
  dsimp only
  rw [hclosed]

/-- The first failure of a required provider rejects the resolution. -/
theorem runFrom_of_closedFailure (hfields : PlainFields fields)
    (hplain : ∀ provider ∈ providers, provider.ReturnsPlain request)
    {error : AttributeProviderResolutionError ε}
    (herror : providers.findSome? (AttributeProvider.closedFailure request) = some error) :
    runFrom request fields failures providers = .error (.provider error) := by
  induction providers generalizing fields failures with
  | nil => exact nomatch herror
  | cons provider providers ih =>
    obtain ⟨hprovider, hproviders⟩ := List.forall_mem_cons.mp hplain
    rw [List.findSome?_cons, AttributeProvider.closedFailure] at herror
    cases hresolve : provider.resolve request with
    | ok context =>
      obtain ⟨later, hlater, rfl⟩ := hprovider.exists_fields hresolve
      rw [hresolve] at herror
      rw [runFrom_cons_of_ok hlater hresolve]
      exact ih (hfields.mergedWith hlater) hproviders herror
    | error cause =>
      rw [hresolve] at herror
      cases hmode : provider.failureMode with
      | failOpen =>
        rw [hmode] at herror
        rw [runFrom_cons_of_open hresolve hmode]
        exact ih hfields hproviders herror
      | failClosed =>
        rw [hmode] at herror
        rw [runFrom_cons_of_closed hresolve hmode, Option.some.inj herror]

/-- Without such a failure there is a result; by induction on the providers, with the bags of those
before. -/
theorem exists_runFrom (failures : List (AttributeProviderFailure ε)) (hfields : PlainFields fields)
    (hplain : ∀ provider ∈ providers, provider.ReturnsPlain request)
    (hnone : providers.findSome? (AttributeProvider.closedFailure request) = none) :
    ∃ merged, runFrom request fields failures providers = .ok
        { context := ObjectContext.ofFields merged
          failures := failures ++ providers.filterMap (AttributeProvider.openFailure request) } ∧
      ∀ name path value, path ≠ [] → value.isRecord = false →
        (((ObjectContext.ofFields merged).bag name).valueAt path = some value ↔
          Prevails providers request name path value ∨
            ((ObjectContext.ofFields fields).bag name).valueAt path = some value ∧
              ∀ later ∈ providers, ¬later.Hides request name path) := by
  induction providers generalizing fields failures with
  | nil =>
    refine ⟨fields, ?_, ?_⟩
    · rw [runFrom_nil hfields, List.filterMap_nil, List.append_nil]
    · intro name path value _ _
      have hnot : ¬Prevails ([] : List (AttributeProvider ε)) request name path value := by
        rintro ⟨before, other, after, heq, -⟩
        exact absurd heq.symm (by simp)
      simp [hnot]
  | cons provider providers ih =>
    obtain ⟨hprovider, hproviders⟩ := List.forall_mem_cons.mp hplain
    rw [List.findSome?_cons, AttributeProvider.closedFailure] at hnone
    cases hresolve : provider.resolve request with
    | ok context =>
      obtain ⟨later, hlater, rfl⟩ := hprovider.exists_fields hresolve
      rw [hresolve] at hnone
      obtain ⟨merged, hrun, hvalues⟩ := ih failures (hfields.mergedWith hlater) hproviders hnone
      have hreported : AttributeProvider.openFailure request provider = none := by
        rw [AttributeProvider.openFailure, hresolve]
      refine ⟨merged, ?_, ?_⟩
      · rw [runFrom_cons_of_ok hlater hresolve, hrun, List.filterMap_cons_none hreported]
      · intro name path value hpath hleaf
        rw [hvalues name path value hpath hleaf, prevails_cons_iff, List.forall_mem_cons,
          AttributeProvider.sets_iff_of_ok hresolve, AttributeProvider.hides_iff_of_ok hresolve,
          ObjectContext.bag_ofFields, ObjectContext.bag_ofFields, ObjectContext.bag_ofFields,
          mergedWith, ObjectValue.valueAt_mergeFields_iff hpath (hlater.distinct name) hleaf]
        tauto
    | error error =>
      rw [hresolve] at hnone
      cases hmode : provider.failureMode with
      | failClosed =>
        rw [hmode] at hnone
        exact nomatch hnone
      | failOpen =>
        rw [hmode] at hnone
        obtain ⟨merged, hrun, hvalues⟩ :=
          ih (failures ++ [{ provider := provider.name, error }]) hfields hproviders hnone
        have hreported : AttributeProvider.openFailure request provider =
            some { provider := provider.name, error } := by
          rw [AttributeProvider.openFailure, hresolve, hmode]
        refine ⟨merged, ?_, ?_⟩
        · rw [runFrom_cons_of_open hresolve hmode, hrun, List.filterMap_cons_some hreported,
            List.append_assoc, List.singleton_append]
        · intro name path value hpath hleaf
          have hsets := AttributeProvider.not_sets_of_error hresolve name path value
          have hhides := AttributeProvider.not_hides_of_error hresolve name path
          rw [hvalues name path value hpath hleaf, prevails_cons_iff, List.forall_mem_cons]
          tauto

end AttributeResolutionPipeline

/-- The provider is required and fails. -/
def AttributeProvider.FailsClosed (provider : AttributeProvider ε)
    (request : AttributeResolutionRequest) : Prop :=
  provider.failureMode = .failClosed ∧ ∃ cause, provider.resolve request = .error cause

theorem AttributeProvider.failsClosed_iff {provider : AttributeProvider ε}
    {request : AttributeResolutionRequest} :
    provider.FailsClosed request ↔ provider.closedFailure request ≠ none := by
  unfold FailsClosed closedFailure
  cases provider.resolve request <;> cases provider.failureMode <;> simp

/-- Resolution is rejected exactly if a required provider fails.  Otherwise a value that is no
record stands at a path of the result exactly if some provider set it and no later one hides it; and
the failures are those of the optional providers, in their order. -/
theorem resolve_merges (pipeline : AttributeResolutionPipeline ε)
    (request : AttributeResolutionRequest)
    (hplain : ∀ provider ∈ pipeline.providers, provider.ReturnsPlain request) :
    ((∃ error, pipeline.resolve request = .error error) ↔
      ∃ provider ∈ pipeline.providers, provider.FailsClosed request) ∧
    ∀ result, pipeline.resolve request = .ok result →
      (∀ name path value, path ≠ [] → value.isRecord = false →
        ((result.context.bag name).valueAt path = some value ↔
          Prevails pipeline.providers request name path value)) ∧
      result.failures = pipeline.providers.filterMap
        (AttributeProvider.openFailure request) := by
  have hfields : PlainFields fun _ => [] := ⟨fun _ => ⟨List.nodup_nil, trivial⟩, fun _ => trivial⟩
  have hsome : (∃ provider ∈ pipeline.providers, provider.FailsClosed request) ↔
      pipeline.providers.findSome? (AttributeProvider.closedFailure request) ≠ none := by
    simp only [AttributeProvider.failsClosed_iff, ne_eq, List.findSome?_eq_none_iff, not_forall,
      exists_prop]
  have hrun : pipeline.resolve request = AttributeResolutionPipeline.runFrom request (fun _ => [])
      [] pipeline.providers := rfl
  rw [hsome, hrun]
  cases hclosed : pipeline.providers.findSome? (AttributeProvider.closedFailure request) with
  | some error =>
    rw [AttributeResolutionPipeline.runFrom_of_closedFailure hfields hplain hclosed]
    exact ⟨iff_of_true ⟨_, rfl⟩ (fun h => nomatch h), fun result h => nomatch h⟩
  | none =>
    obtain ⟨merged, hmerged, hvalues⟩ :=
      AttributeResolutionPipeline.exists_runFrom [] hfields hplain hclosed
    rw [hmerged]
    refine ⟨iff_of_false (fun h => nomatch h) (fun h => h rfl), ?_⟩
    intro result h
    rw [← Except.ok.inj h]
    refine ⟨?_, rfl⟩
    intro name path value hpath hleaf
    rw [hvalues name path value hpath hleaf, or_iff_left]
    rintro ⟨hvalue, -⟩
    rw [ObjectContext.bag_ofFields] at hvalue
    cases path with
    | nil => exact hpath rfl
    | cons key path => exact nomatch hvalue

end Run

/-- Bags with one claim about the subject. -/
def claimedRole (role : String) : SuppliedBags where
  bag
    | .subject => [("claims", some (.record [("role", .string role)]))]
    | _ => []
  nodup name := by cases name <;> simp
  distinct name := by
    cases name <;> simp [AttributeValue.Distinct, AttributeValue.DistinctFields]

theorem claimedRole_prototypeFree (role : String) : (claimedRole role).PrototypeFree := by
  have hclaims : "claims" ≠ prototypeKey := by decide
  have hrole : "role" ≠ prototypeKey := by decide
  intro name
  cases name
  · exact ⟨hclaims, ⟨hrole, trivial, trivial⟩, trivial⟩
  all_goals trivial

/-- Claims of the request, an optional lookup that fails, and a required one. -/
def sampleProviders : List (AttributeProvider String) :=
  [⟨"request", .failOpen, fun _ => .ok (claimedRole "admin").context⟩,
    ⟨"profile", .failOpen, fun _ => .error "unavailable"⟩,
    ⟨"identity", .failClosed, fun _ => .ok (claimedRole "member").context⟩]

def samplePipeline : AttributeResolutionPipeline String where
  providers := sampleProviders
  named := by decide
  distinct := by decide

theorem sampleProviders_returnPlain (request : AttributeResolutionRequest) :
    ∀ provider ∈ sampleProviders, provider.ReturnsPlain request := by
  have hclaimed : ∀ role, ∃ bags : SuppliedBags, bags.PrototypeFree ∧
      bags.create = .ok (claimedRole role).context := fun role =>
    ⟨claimedRole role, claimedRole_prototypeFree role,
      SuppliedBags.create_of_prototypeFree (claimedRole_prototypeFree role)⟩
  intro provider hmem context hcontext
  simp only [sampleProviders, List.mem_cons, List.not_mem_nil, or_false] at hmem
  rcases hmem with rfl | rfl | rfl
  · rw [← Except.ok.inj hcontext]
    exact hclaimed "admin"
  · exact nomatch hcontext
  · rw [← Except.ok.inj hcontext]
    exact hclaimed "member"

theorem resolve_merges_sample :
    (∃ error, samplePipeline.resolve ⟨"user-1", "doc-1", "read"⟩ = .error error) ↔
      ∃ provider ∈ sampleProviders, provider.FailsClosed ⟨"user-1", "doc-1", "read"⟩ :=
  (resolve_merges samplePipeline _ (sampleProviders_returnPlain _)).1

/-- The required lookup overrides the claim of the request. -/
example : ∃ result, samplePipeline.resolve ⟨"user-1", "doc-1", "read"⟩ = .ok result ∧
    (result.context.bag .subject).valueAt ["claims", "role"] = some (.string "member") ∧
    result.failures.map AttributeProviderFailure.provider = ["profile"] :=
  ⟨_, rfl, rfl, rfl⟩

end Verixa.Authorization
