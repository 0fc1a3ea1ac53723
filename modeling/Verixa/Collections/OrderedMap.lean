import Mathlib.Data.List.Dedup
import Mathlib.Data.List.Nodup
import Mathlib.Data.List.Lookmap

/-!
# Maps that remember insertion order

An `OrderedMap κ ν` is a finite map kept as the list of its entries in the order in which the
keys were first set, as a JavaScript `Map` keeps them: setting a present key replaces its value in
place, setting an absent key adds an entry at the end.  Keys are distinct by construction, so the
lookup function `get?` says everything about a map except the order (`perm_keys_of_get?_eq`).
-/

/-- A finite map together with the order in which its keys were first set. -/
structure OrderedMap (κ ν : Type*) where
  /-- The entries, in insertion order. -/
  entries : List (κ × ν)
  /-- No key occurs twice. -/
  nodup : (entries.map Prod.fst).Nodup
  deriving DecidableEq

namespace OrderedMap

variable {κ ν : Type*}

/-- The map without entries. -/
def empty : OrderedMap κ ν := ⟨[], List.nodup_nil⟩

instance : Inhabited (OrderedMap κ ν) := ⟨empty⟩

/-- The keys, in insertion order. -/
def keys (m : OrderedMap κ ν) : List κ := m.entries.map Prod.fst

/-- The values, in insertion order. -/
def values (m : OrderedMap κ ν) : List ν := m.entries.map Prod.snd

/-- The map with every value replaced by its image under `f`. -/
def mapValues {ν' : Type*} (f : ν → ν') (m : OrderedMap κ ν) : OrderedMap κ ν' where
  entries := m.entries.map fun p => (p.1, f p.2)
  nodup := by simpa [Function.comp_def] using m.nodup

variable [DecidableEq κ]

/-- Look a key up in a list of entries. -/
def lookupEntry (k : κ) : List (κ × ν) → Option ν
  | [] => none
  | (k', v) :: l => if k' = k then some v else lookupEntry k l

/-- Set a key in a list of entries: in place if it occurs, at the end otherwise. -/
def upsertEntry (k : κ) (v : ν) : List (κ × ν) → List (κ × ν)
  | [] => [(k, v)]
  | (k', v') :: l => if k' = k then (k, v) :: l else (k', v') :: upsertEntry k v l

/-- `map.get(key)`. -/
def get? (m : OrderedMap κ ν) (k : κ) : Option ν := lookupEntry k m.entries

example (k : κ) (v : ν) : lookupEntry k (upsertEntry k v []) = some v := by
  rw [upsertEntry, lookupEntry, if_pos rfl]

/-! ## Lists of entries -/

theorem mem_keys_upsertEntry {k k' : κ} {v : ν} {l : List (κ × ν)} :
    k' ∈ (upsertEntry k v l).map Prod.fst ↔ k' = k ∨ k' ∈ l.map Prod.fst := by
  induction l with
  | nil => simp [upsertEntry]
  | cons p l ih =>
    unfold upsertEntry
    split
    · rename_i h
      simp [h]
    · simp only [List.map_cons, List.mem_cons, ih]
      tauto

theorem nodup_upsertEntry {k : κ} {v : ν} {l : List (κ × ν)} (h : (l.map Prod.fst).Nodup) :
    ((upsertEntry k v l).map Prod.fst).Nodup := by
  induction l with
  | nil => simp [upsertEntry]
  | cons p l ih =>
    simp only [List.map_cons, List.nodup_cons] at h
    unfold upsertEntry
    split
    · rename_i hp
      simpa [← hp] using h
    · rename_i hp
      simp only [List.map_cons, List.nodup_cons, mem_keys_upsertEntry, not_or]
      exact ⟨⟨hp, h.1⟩, ih h.2⟩

theorem lookupEntry_upsertEntry (k k' : κ) (v : ν) (l : List (κ × ν)) :
    lookupEntry k' (upsertEntry k v l) = if k = k' then some v else lookupEntry k' l := by
  induction l with
  | nil => simp [upsertEntry, lookupEntry]
  | cons p l ih =>
    unfold upsertEntry
    split
    · rename_i hp
      subst hp
      by_cases hk : p.1 = k' <;> simp [lookupEntry, hk]
    · rename_i hp
      by_cases hk : k = k'
      · subst hk
        simp [lookupEntry, hp, ih]
      · by_cases hp' : p.1 = k' <;> simp [lookupEntry, hk, hp', ih]

/-- Setting a key that does not occur adds an entry at the end. -/
theorem upsertEntry_of_not_mem {k : κ} {v : ν} {l : List (κ × ν)} (h : k ∉ l.map Prod.fst) :
    upsertEntry k v l = l ++ [(k, v)] := by
  induction l with
  | nil => rfl
  | cons p l ih =>
    simp only [List.map_cons, List.mem_cons, not_or] at h
    rw [upsertEntry, if_neg (Ne.symm h.1), ih h.2, List.cons_append]

/-- Setting a key adds at most the new value to what is counted among the values. -/
theorem countP_upsertEntry_le (p : ν → Bool) (k : κ) (v : ν) (l : List (κ × ν)) :
    ((upsertEntry k v l).map Prod.snd).countP p ≤
      (l.map Prod.snd).countP p + if p v then 1 else 0 := by
  induction l with
  | nil => simp [upsertEntry, List.countP_cons]
  | cons e l ih =>
    rw [upsertEntry]
    split
    · simp only [List.map_cons, List.countP_cons]
      omega
    · simp only [List.map_cons, List.countP_cons]
      omega

/-- Setting a key that occurs adds no entry. -/
theorem length_upsertEntry_of_mem {k : κ} {v : ν} {l : List (κ × ν)}
    (h : k ∈ l.map Prod.fst) : (upsertEntry k v l).length = l.length := by
  induction l with
  | nil => simp at h
  | cons e l ih =>
    rw [upsertEntry]
    split
    · rfl
    · rename_i hne
      have hmem : k ∈ l.map Prod.fst := (List.mem_cons.mp h).resolve_left (Ne.symm hne)
      rw [List.length_cons, List.length_cons, ih hmem]

/-- Setting a key that occurs replaces its entry in place. -/
theorem upsertEntry_eq_map {k : κ} {v : ν} {l : List (κ × ν)} (hnodup : (l.map Prod.fst).Nodup)
    (h : k ∈ l.map Prod.fst) :
    upsertEntry k v l = l.map fun e => if e.1 = k then (k, v) else e := by
  induction l with
  | nil => simp at h
  | cons e l ih =>
    rw [List.map_cons, List.nodup_cons] at hnodup
    rw [upsertEntry, List.map_cons]
    split
    · rename_i he
      -- the key occurs nowhere else
      have hrest : l.map (fun e => if e.1 = k then (k, v) else e) = l.map id := by
        refine List.map_congr_left fun e' he' => if_neg fun heq => hnodup.1 ?_
        rw [he, ← heq]
        exact List.mem_map_of_mem he'
      rw [hrest, List.map_id]
    · rename_i hne
      have hmem : k ∈ l.map Prod.fst := (List.mem_cons.mp h).resolve_left (Ne.symm hne)
      rw [ih hnodup.2 hmem]

/-- In a list of entries with distinct keys the lookup finds exactly the entries. -/
theorem lookupEntry_eq_some_iff {l : List (κ × ν)} (h : (l.map Prod.fst).Nodup) {k : κ} {v : ν} :
    lookupEntry k l = some v ↔ (k, v) ∈ l := by
  induction l with
  | nil => simp [lookupEntry]
  | cons p l ih =>
    obtain ⟨k', v'⟩ := p
    simp only [List.map_cons, List.nodup_cons] at h
    by_cases hk : k' = k
    · subst hk
      have hnot : (k', v) ∉ l := fun hmem => h.1 (List.mem_map_of_mem hmem)
      simp [lookupEntry, hnot, eq_comm]
    · simp [lookupEntry, hk, ih h.2, Ne.symm hk]

theorem lookupEntry_map {ν' : Type*} (f : ν → ν') (k : κ) (l : List (κ × ν)) :
    lookupEntry k (l.map fun p => (p.1, f p.2)) = (lookupEntry k l).map f := by
  induction l with
  | nil => rfl
  | cons p l ih =>
    by_cases hk : p.1 = k <;> simp [lookupEntry, hk, ih]

/-! ## Maps -/

/-- `map.set(key, value)`. -/
def set (m : OrderedMap κ ν) (k : κ) (v : ν) : OrderedMap κ ν where
  entries := upsertEntry k v m.entries
  nodup := nodup_upsertEntry m.nodup

/-- `map.delete(key)`. -/
def erase (m : OrderedMap κ ν) (k : κ) : OrderedMap κ ν where
  entries := m.entries.filter fun e => decide (e.1 ≠ k)
  nodup := m.nodup.sublist ((List.filter_sublist (l := m.entries)).map _)

@[simp] theorem get?_empty (k : κ) : (empty : OrderedMap κ ν).get? k = none := rfl

/-- A map with given keys, every value being a function of its key. -/
def ofKeys (ks : List κ) (f : κ → ν) : OrderedMap κ ν where
  entries := ks.dedup.map fun k => (k, f k)
  nodup := by simpa [Function.comp_def] using ks.nodup_dedup

/-- Reading after a write. -/
theorem get?_set (m : OrderedMap κ ν) (k k' : κ) (v : ν) :
    (m.set k v).get? k' = if k = k' then some v else m.get? k' :=
  lookupEntry_upsertEntry k k' v m.entries

@[simp] theorem get?_set_self (m : OrderedMap κ ν) (k : κ) (v : ν) :
    (m.set k v).get? k = some v := by
  simp [get?_set]

theorem get?_set_of_ne (m : OrderedMap κ ν) {k k' : κ} (h : k ≠ k') (v : ν) :
    (m.set k v).get? k' = m.get? k' := by
  simp [get?_set, h]

@[simp] theorem get?_mapValues {ν' : Type*} (f : ν → ν') (m : OrderedMap κ ν) (k : κ) :
    (m.mapValues f).get? k = (m.get? k).map f :=
  lookupEntry_map f k m.entries

/-- The lookup function finds exactly the entries. -/
theorem get?_eq_some_iff {m : OrderedMap κ ν} {k : κ} {v : ν} :
    m.get? k = some v ↔ (k, v) ∈ m.entries :=
  lookupEntry_eq_some_iff m.nodup

theorem get?_ofKeys (ks : List κ) (f : κ → ν) (k : κ) :
    (ofKeys ks f).get? k = if k ∈ ks then some (f k) else none := by
  refine Option.ext fun v => ?_
  rw [get?_eq_some_iff, ofKeys]
  by_cases hk : k ∈ ks
  · simp [hk]
  · simp only [List.mem_map, List.mem_dedup, Prod.mk.injEq, if_neg hk, reduceCtorEq, iff_false]
    rintro ⟨k', hk', rfl, -⟩
    exact hk hk'

/-- Reading after a deletion. -/
theorem get?_erase (m : OrderedMap κ ν) (k k' : κ) :
    (m.erase k).get? k' = if k = k' then none else m.get? k' := by
  refine Option.ext fun v => ?_
  rw [get?_eq_some_iff, erase, List.mem_filter, decide_eq_true_iff]
  by_cases hk : k = k'
  · simp [hk]
  · simp only [hk, if_false, get?_eq_some_iff]
    exact and_iff_left (Ne.symm hk)

@[simp] theorem get?_erase_self (m : OrderedMap κ ν) (k : κ) : (m.erase k).get? k = none := by
  simp [get?_erase]

theorem get?_erase_of_ne (m : OrderedMap κ ν) {k k' : κ} (h : k ≠ k') :
    (m.erase k).get? k' = m.get? k' := by
  simp [get?_erase, h]

theorem mem_keys_iff {m : OrderedMap κ ν} {k : κ} : k ∈ m.keys ↔ ∃ v, m.get? k = some v := by
  simp [keys, get?_eq_some_iff]

theorem mem_values_iff {m : OrderedMap κ ν} {v : ν} :
    v ∈ m.values ↔ ∃ k, m.get? k = some v := by
  simp [values, get?_eq_some_iff]

/-- Maps with the same lookup function have the same keys, up to order. -/
theorem perm_keys_of_get?_eq {m m' : OrderedMap κ ν} (h : ∀ k, m.get? k = m'.get? k) :
    m.keys.Perm m'.keys := by
  refine (List.perm_ext_iff_of_nodup m.nodup m'.nodup).mpr fun k => ?_
  change k ∈ m.keys ↔ k ∈ m'.keys
  rw [mem_keys_iff, mem_keys_iff, h]

end OrderedMap
