import Mathlib.Data.Finset.Card
import Mathlib.Data.List.Find
import Verixa.Collections.OrderedMap

/-!
# Maps keyed by their own values

A `KeyedMap key` is an ordered map in which every value stands under its own key `key v`, as a
repository keeps entities under their ids.  Values are put, never put under a key of one's choice,
so that no value can stand in a wrong place.
-/

/-- A map in which every value stands under its own key. -/
structure KeyedMap {κ ν : Type*} [DecidableEq κ] (key : ν → κ) where
  /-- The map below. -/
  map : OrderedMap κ ν
  /-- Every value stands under its own key. -/
  keyed : ∀ k v, map.get? k = some v → key v = k

namespace KeyedMap

variable {κ ν : Type*} [DecidableEq κ] {key : ν → κ}

instance [DecidableEq ν] : DecidableEq (KeyedMap key) := fun m m' =>
  decidable_of_iff (m.map = m'.map) (by cases m; cases m'; simp)

/-- The map without values. -/
def empty : KeyedMap key := ⟨OrderedMap.empty, fun k v h => by simp at h⟩

/-- The value under a key. -/
def get? (m : KeyedMap key) (k : κ) : Option ν := m.map.get? k

/-- The values, in the order in which their keys were first used. -/
def values (m : KeyedMap key) : List ν := m.map.values

/-- Put a value under its key. -/
def put (m : KeyedMap key) (v : ν) : KeyedMap key where
  map := m.map.set (key v) v
  keyed k w h := by
    rw [OrderedMap.get?_set] at h
    split at h
    · rename_i hk
      obtain rfl : v = w := Option.some.inj h
      exact hk
    · exact m.keyed k w h

/-- Delete a key. -/
def erase (m : KeyedMap key) (k : κ) : KeyedMap key where
  map := m.map.erase k
  keyed k' v h := by
    rw [OrderedMap.get?_erase] at h
    split at h
    · cases h
    · exact m.keyed k' v h

/-- Replace every value by its image under a function that leaves keys alone. -/
def mapValues (m : KeyedMap key) (f : ν → ν) (hf : ∀ v, key (f v) = key v) : KeyedMap key where
  map := m.map.mapValues f
  keyed k w h := by
    rw [OrderedMap.get?_mapValues, Option.map_eq_some_iff] at h
    obtain ⟨v, hv, rfl⟩ := h
    exact (hf v).trans (m.keyed k v hv)

@[simp] theorem get?_empty (k : κ) : (empty : KeyedMap key).get? k = none := rfl

theorem key_of_get? {m : KeyedMap key} {k : κ} {v : ν} (h : m.get? k = some v) : key v = k :=
  m.keyed k v h

/-- Reading after a write. -/
theorem get?_put (m : KeyedMap key) (v : ν) (k : κ) :
    (m.put v).get? k = if key v = k then some v else m.get? k :=
  OrderedMap.get?_set m.map (key v) k v

@[simp] theorem get?_put_self (m : KeyedMap key) (v : ν) : (m.put v).get? (key v) = some v := by
  simp [get?_put]

theorem get?_put_of_ne (m : KeyedMap key) {v : ν} {k : κ} (h : key v ≠ k) :
    (m.put v).get? k = m.get? k := by
  simp [get?_put, h]

/-- Reading after a deletion. -/
theorem get?_erase (m : KeyedMap key) (k k' : κ) :
    (m.erase k).get? k' = if k = k' then none else m.get? k' :=
  OrderedMap.get?_erase m.map k k'

@[simp] theorem get?_mapValues (m : KeyedMap key) (f : ν → ν) (hf : ∀ v, key (f v) = key v)
    (k : κ) : (m.mapValues f hf).get? k = (m.get? k).map f :=
  OrderedMap.get?_mapValues f m.map k

theorem mem_values_of_get? {m : KeyedMap key} {k : κ} {v : ν} (h : m.get? k = some v) :
    v ∈ m.values :=
  OrderedMap.mem_values_iff.mpr ⟨k, h⟩

/-- The values are what the map holds under their own keys. -/
theorem mem_values_iff {m : KeyedMap key} {v : ν} : v ∈ m.values ↔ m.get? (key v) = some v :=
  ⟨fun h => by
    obtain ⟨k, hk⟩ := OrderedMap.mem_values_iff.mp h
    obtain rfl := m.keyed k v hk
    exact hk, mem_values_of_get?⟩

/-- Every value is found under its own key. -/
theorem get?_of_mem_values {m : KeyedMap key} {v : ν} (h : v ∈ m.values) :
    m.get? (key v) = some v :=
  mem_values_iff.mp h

/-- Replacing a value leaves the order of the values as it was. -/
theorem values_put_of_get? {m : KeyedMap key} {v : ν} (h : m.get? (key v) ≠ none) :
    (m.put v).values = m.values.map fun w => if key w = key v then v else w := by
  obtain ⟨w, hw⟩ := Option.ne_none_iff_exists'.mp h
  have hmem : key v ∈ m.map.keys := OrderedMap.mem_keys_iff.mpr ⟨w, hw⟩
  have hentries : (m.put v).map.entries =
      m.map.entries.map fun e => if e.1 = key v then (key v, v) else e :=
    OrderedMap.upsertEntry_eq_map m.map.nodup hmem
  rw [values, OrderedMap.values, hentries, values, OrderedMap.values, List.map_map, List.map_map]
  refine List.map_congr_left fun e he => ?_
  have hkey : key e.2 = e.1 := m.keyed e.1 e.2 (OrderedMap.get?_eq_some_iff.mpr he)
  simp only [Function.comp_apply, hkey]
  split <;> rfl

/-- Replacing a value by one that a search treats the same changes what the search finds in the
same way. -/
theorem find?_values_put {m : KeyedMap key} {v w : ν} (h : m.get? (key v) = some w)
    {p : ν → Bool} (hp : p v = p w) :
    (m.put v).values.find? p =
      (m.values.find? p).map fun x => if key x = key v then v else x := by
  rw [values_put_of_get? (by simp [h]), List.find?_map]
  congr 1
  refine List.find?_congr fun x hx => ?_
  rw [Function.comp_apply]
  split
  · rename_i hkey
    have hxw : m.get? (key x) = some w := by rw [hkey, h]
    obtain rfl : x = w := Option.some.inj ((get?_of_mem_values hx).symm.trans hxw)
    exact hp
  · rfl

/-! ## How many values there are -/

/-- Putting a value adds at most that value to what is counted. -/
theorem countP_values_put_le (m : KeyedMap key) (p : ν → Bool) (v : ν) :
    (m.put v).values.countP p ≤ m.values.countP p + if p v then 1 else 0 :=
  OrderedMap.countP_upsertEntry_le p (key v) v m.map.entries

/-- Putting a value adds at most one. -/
theorem length_values_put_le (m : KeyedMap key) (v : ν) :
    (m.put v).values.length ≤ m.values.length + 1 := by
  have h := m.countP_values_put_le (fun _ => true) v
  simpa using h

/-- Replacing a value adds none. -/
theorem length_values_put_of_get? {m : KeyedMap key} {v : ν} (h : m.get? (key v) ≠ none) :
    (m.put v).values.length = m.values.length := by
  obtain ⟨w, hw⟩ := Option.ne_none_iff_exists'.mp h
  have hmem : key v ∈ m.map.keys := OrderedMap.mem_keys_iff.mpr ⟨w, hw⟩
  have hlength := OrderedMap.length_upsertEntry_of_mem (v := v) hmem
  simpa [values, OrderedMap.values, put, OrderedMap.set] using hlength

/-- There are at least as many values as keys that are known to be used. -/
theorem card_le_length_values {m : KeyedMap key} {ks : Finset κ}
    (h : ∀ k ∈ ks, m.get? k ≠ none) : ks.card ≤ m.values.length := by
  have hsubset : ks ⊆ m.map.keys.toFinset := by
    intro k hk
    obtain ⟨v, hv⟩ := Option.ne_none_iff_exists'.mp (h k hk)
    exact List.mem_toFinset.mpr (OrderedMap.mem_keys_iff.mpr ⟨v, hv⟩)
  calc ks.card ≤ m.map.keys.toFinset.card := Finset.card_le_card hsubset
    _ ≤ m.map.keys.length := m.map.keys.toFinset_card_le
    _ = m.values.length := by simp [values, OrderedMap.values, OrderedMap.keys]

end KeyedMap
