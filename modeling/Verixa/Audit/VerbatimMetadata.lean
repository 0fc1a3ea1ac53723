import Verixa.Audit.AuditMetadata

/-!
# What a bag records of its input

`AuditMetadata.create` accepts exactly the inputs within its bounds (`create_isOk_iff`).  The bag
is rebuilt by assignments onto an ordinary object, so that it has every field of the input except
one named `__proto__` (`get?_of_create`): an accepted input is recorded verbatim as far as it has no
field of this name.
-/

namespace Verixa

open Encoding

namespace AuditMetadata

/-- The bounds that are documented. -/
structure WithinBounds (input : UnknownRecord) : Prop where
  fields : input.entries.length ≤ 32
  keys : ∀ field ∈ input.entries, 1 ≤ utf16Length field.1 ∧ utf16Length field.1 ≤ 64
  values : ∀ field ∈ input.entries, ∃ text, field.2 = .string text ∧ utf16Length text ≤ 1024

variable {key : String} {value : Unknown} {text : String}
  {fields : List (String × Unknown)} {values result : StringRecord} {input : UnknownRecord}

/-- A field that passes is a text within the bounds. -/
theorem checkField_eq_ok_iff : checkField key value = .ok text ↔
    (1 ≤ utf16Length key ∧ utf16Length key ≤ 64) ∧ value = .string text ∧
      utf16Length text ≤ 1024 := by
  unfold checkField
  constructor
  · intro h
    split at h
    · cases h
    split at h
    · cases h
    rename_i hempty hlong
    have hkey : 1 ≤ utf16Length key ∧ utf16Length key ≤ 64 := by
      rw [MAX_METADATA_KEY_LENGTH] at hlong
      omega
    cases value with
    | string given =>
      dsimp only at h
      split at h
      · cases h
      · rename_i hvalue
        rw [MAX_METADATA_VALUE_LENGTH] at hvalue
        cases h
        exact ⟨hkey, rfl, by omega⟩
    | null => cases h
    | array => cases h
    | other type => cases h
  · rintro ⟨⟨hempty, hlong⟩, rfl, hvalue⟩
    rw [if_neg (by omega), if_neg (by rw [MAX_METADATA_KEY_LENGTH]; omega)]
    dsimp only
    rw [if_neg (by rw [MAX_METADATA_VALUE_LENGTH]; omega)]

/-- The loop goes through when every field passes. -/
theorem createLoop_isOk_iff : (∃ result, createLoop fields values = .ok result) ↔
    ∀ field ∈ fields, ∃ text, checkField field.1 field.2 = .ok text := by
  induction fields generalizing values with
  | nil => simp [createLoop]
  | cons field fields ih =>
    rw [List.forall_mem_cons, createLoop]
    cases hfield : checkField field.1 field.2 with
    | error error => simp
    | ok text => simp [ih]

/-- The fields behind a loop that went through: those of the list, but for one. -/
theorem get?_of_createLoop (hnodup : (fields.map Prod.fst).Nodup)
    (h : createLoop fields values = .ok result) (key : String) :
    (result.get? key).map Unknown.string =
      if key = protoKey then (values.get? key).map Unknown.string
      else (OrderedMap.lookupEntry key fields).or ((values.get? key).map Unknown.string) := by
  induction fields generalizing values with
  | nil =>
    cases h
    simp [OrderedMap.lookupEntry]
  | cons field fields ih =>
    obtain ⟨hnew, hrest⟩ := List.nodup_cons.mp hnodup
    rw [createLoop] at h
    split at h
    · cases h
    · rename_i text htext
      obtain ⟨-, hvalue, -⟩ := checkField_eq_ok_iff.mp htext
      rw [ih hrest h, StringRecord.get?_assign, OrderedMap.lookupEntry]
      by_cases hproto : key = protoKey
      · have hignored : ¬ (field.1 ≠ protoKey ∧ field.1 = key) := by
          rintro ⟨hne, rfl⟩
          exact hne hproto
        rw [if_pos hproto, if_pos hproto, if_neg hignored]
      · rw [if_neg hproto, if_neg hproto]
        by_cases hkey : field.1 = key
        · have hnone : OrderedMap.lookupEntry key fields = none := by
            rw [Option.eq_none_iff_forall_ne_some]
            intro found hfound
            rw [OrderedMap.lookupEntry_eq_some_iff hrest] at hfound
            exact hnew (List.mem_map.mpr ⟨_, hfound, hkey.symm⟩)
          rw [if_pos hkey, if_pos ⟨hkey ▸ hproto, hkey⟩, hnone, hvalue]
          rfl
        · rw [if_neg hkey, if_neg fun hboth => hkey hboth.2]

/-- Exactly the inputs within the bounds are accepted. -/
theorem create_isOk_iff : (∃ values, create input = .ok values) ↔ WithinBounds input := by
  unfold create
  split
  · rename_i hmany
    rw [MAX_METADATA_ENTRIES] at hmany
    constructor
    · rintro ⟨values, hvalues⟩
      cases hvalues
    · intro hbounds
      have hfew := hbounds.fields
      omega
  · rename_i hfew
    rw [MAX_METADATA_ENTRIES] at hfew
    rw [createLoop_isOk_iff]
    constructor
    · intro hfields
      refine ⟨by omega, fun field hfield => ?_, fun field hfield => ?_⟩
      · obtain ⟨text, htext⟩ := hfields field hfield
        exact (checkField_eq_ok_iff.mp htext).1
      · obtain ⟨text, htext⟩ := hfields field hfield
        exact ⟨text, (checkField_eq_ok_iff.mp htext).2⟩
    · intro hbounds field hfield
      obtain ⟨text, hvalue, hlength⟩ := hbounds.values field hfield
      exact ⟨text, checkField_eq_ok_iff.mpr ⟨hbounds.keys field hfield, hvalue, hlength⟩⟩

/-- An accepted bag has every field of its input, but for `__proto__`. -/
theorem get?_of_create (h : create input = .ok values) (key : String) :
    (values.get? key).map Unknown.string = if key = protoKey then none else input.get? key := by
  unfold create at h
  split at h
  · cases h
  · rw [get?_of_createLoop input.nodup h, OrderedMap.get?_empty, Option.map_none, Option.or_none]
    rfl

/-- An input is recorded verbatim or refused: it is accepted exactly within the bounds, and what is
recorded of it then is the input as a map. -/
def VerbatimOrRefused (input : UnknownRecord) : Prop :=
  ((∃ values, create input = .ok values) ↔ WithinBounds input) ∧
    ∀ values, create input = .ok values →
      ∀ key, (values.get? key).map Unknown.string = input.get? key

/-- An input is recorded verbatim or refused unless it is within the bounds and has a field
`__proto__`. -/
theorem verbatim_iff (input : UnknownRecord) :
    VerbatimOrRefused input ↔ (WithinBounds input → protoKey ∉ input.keys) := by
  constructor
  · rintro ⟨haccepted, hverbatim⟩ hbounds hproto
    obtain ⟨values, hvalues⟩ := haccepted.mpr hbounds
    obtain ⟨value, hvalue⟩ := OrderedMap.mem_keys_iff.mp hproto
    have hlost := hverbatim values hvalues protoKey
    rw [get?_of_create hvalues, if_pos rfl, hvalue] at hlost
    cases hlost
  · intro hproto
    refine ⟨create_isOk_iff, fun values hvalues key => ?_⟩
    rw [get?_of_create hvalues]
    split
    · rename_i hkey
      cases hvalue : input.get? key with
      | none => rfl
      | some value =>
        have hmem : protoKey ∈ input.keys := OrderedMap.mem_keys_iff.mpr ⟨value, hkey ▸ hvalue⟩
        exact absurd hmem (hproto (create_isOk_iff.mp ⟨values, hvalues⟩))
    · rfl

/-- What `JSON.parse` makes of an object with the one field `__proto__`. -/
def protoField : UnknownRecord := OrderedMap.empty.set protoKey (.string "evidence")

/-- The field is accepted and lost. -/
theorem not_verbatim_proto : ¬ VerbatimOrRefused protoField := by
  rintro ⟨-, hverbatim⟩
  have hlost := hverbatim OrderedMap.empty (by decide +kernel) protoKey
  revert hlost
  decide +kernel

end AuditMetadata

end Verixa
