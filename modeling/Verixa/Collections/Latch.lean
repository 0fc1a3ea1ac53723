import Mathlib.Data.List.Induction

/-!
# Latches over a list

A latch is set by some elements and reset by others; read from left to right it says whether an
element that sets it has occurred since the last one that resets it.
-/

namespace Collections

variable {α : Type*} {set reset : α → Bool} {items : List α} {item : α}

/-- Whether the latch is set after the items. -/
def latched (set reset : α → Bool) (items : List α) : Bool :=
  items.foldl (fun latch item => !reset item && (latch || set item)) false

@[simp] theorem latched_concat :
    latched set reset (items ++ [item]) =
      (!reset item && (latched set reset items || set item)) := by
  simp [latched]

/-- A list that ends in an item splits behind the item or before it. -/
theorem concat_eq_append {left right : List α} (h : items ++ [item] = left ++ right) :
    right = [] ∧ left = items ++ [item] ∨
      ∃ rest, right = rest ++ [item] ∧ items = left ++ rest := by
  rcases List.eq_nil_or_concat right with rfl | ⟨rest, last, rfl⟩
  · exact .inl ⟨rfl, by simpa using h.symm⟩
  · rw [List.concat_eq_append] at h ⊢
    rw [← List.append_assoc] at h
    obtain ⟨hitems, hlast⟩ := List.append_inj' h rfl
    cases hlast
    exact .inr ⟨rest, rfl, hitems⟩

/-- The latch is set when some item sets it and no later one resets it. -/
theorem latched_iff :
    latched set reset items = true ↔ ∃ before setter after, items = before ++ setter :: after ∧
      set setter = true ∧ ∀ item ∈ setter :: after, reset item = false := by
  induction items using List.reverseRecOn with
  | nil => simp [latched]
  | append_singleton items item ih =>
    rw [latched_concat, Bool.and_eq_true, Bool.or_eq_true, Bool.not_eq_true', ih]
    constructor
    · rintro ⟨hreset, ⟨before, setter, after, rfl, hset, hafter⟩ | hset⟩
      · refine ⟨before, setter, after ++ [item], by simp, hset, fun other hother => ?_⟩
        rw [← List.cons_append, List.mem_append, List.mem_singleton] at hother
        rcases hother with hother | rfl
        · exact hafter other hother
        · exact hreset
      · exact ⟨items, item, [], rfl, hset, by simpa using hreset⟩
    · rintro ⟨before, setter, after, hitems, hset, hafter⟩
      have hsplit : items ++ [item] = (before ++ [setter]) ++ after := by simpa using hitems
      rcases concat_eq_append hsplit with ⟨rfl, hlast⟩ | ⟨rest, rfl, rfl⟩
      · obtain ⟨rfl, hsame⟩ := List.append_inj' hlast rfl
        cases hsame
        exact ⟨hafter item (by simp), .inr hset⟩
      · refine ⟨hafter item (by simp), .inl ⟨before, setter, rest, by simp, hset, ?_⟩⟩
        intro other hother
        exact hafter other (by rw [← List.cons_append]; exact List.mem_append_left _ hother)

end Collections
