import Mathlib

/-!
# Self-delimiting codes

A code `e : β → List α` is *self-delimiting* when a reader that is handed a code word followed
by arbitrary further text can tell where the word ends: `e a ++ r = e b ++ s` forces `a = b` and
`r = s`.  The notion is closed under concatenation with constants and with other self-delimiting
codes, under counted repetition and under injective reparametrisation, so the injectivity of a
framed text is read off its shape.

The two sources of self-delimiting codes are

* `selfDelimiting_terminated`: an injective code closed by a letter it never uses, and
* `SelfDelimiting.lengthPrefixed`: a payload preceded by a self-delimiting header that names its
  total weight, where every letter weighs at least one.
-/

namespace Encoding

variable {α β γ : Type*}

/-- A code is self-delimiting if a code word can be read off the front of any text. -/
def SelfDelimiting (e : β → List α) : Prop :=
  ∀ ⦃a b : β⦄ ⦃r s : List α⦄, e a ++ r = e b ++ s → a = b ∧ r = s

namespace SelfDelimiting

variable {e : β → List α} {f : γ → List α}

/-- A self-delimiting code is injective. -/
theorem injective (he : SelfDelimiting e) : Function.Injective e := by
  intro a b hab
  exact (he (r := []) (s := []) (by rw [hab])).1

/-- Putting a fixed text in front of every word keeps a code self-delimiting. -/
theorem prepend (he : SelfDelimiting e) (p : List α) : SelfDelimiting fun b => p ++ e b := by
  intro a b r s h
  simp only [List.append_assoc, List.append_cancel_left_eq] at h
  exact he h

/-- Putting a fixed text behind every word keeps a code self-delimiting. -/
theorem append_const (he : SelfDelimiting e) (t : List α) :
    SelfDelimiting fun b => e b ++ t := by
  intro a b r s h
  simp only [List.append_assoc] at h
  obtain ⟨hab, hrs⟩ := he h
  exact ⟨hab, List.append_cancel_left hrs⟩

/-- An injective change of parameter keeps a code self-delimiting. -/
theorem comp (he : SelfDelimiting e) {g : γ → β} (hg : Function.Injective g) :
    SelfDelimiting fun c => e (g c) := by
  intro a b r s h
  obtain ⟨hab, hrs⟩ := he h
  exact ⟨hg hab, hrs⟩

/-- Two self-delimiting codes in a row are a self-delimiting code of the pair. -/
theorem prod (he : SelfDelimiting e) (hf : SelfDelimiting f) :
    SelfDelimiting fun p : β × γ => e p.1 ++ f p.2 := by
  rintro ⟨a, c⟩ ⟨b, d⟩ r s h
  simp only [List.append_assoc] at h
  obtain ⟨rfl, hrest⟩ := he h
  obtain ⟨rfl, hrs⟩ := hf hrest
  exact ⟨rfl, hrs⟩

/-- Equally many self-delimiting words in a row determine each other. -/
theorem flatMap_append_cancel (he : SelfDelimiting e) {xs ys : List β} {r s : List α}
    (hlen : xs.length = ys.length) (h : xs.flatMap e ++ r = ys.flatMap e ++ s) :
    xs = ys ∧ r = s := by
  induction xs generalizing ys with
  | nil =>
    obtain rfl : ys = [] := List.length_eq_zero_iff.mp hlen.symm
    exact ⟨rfl, h⟩
  | cons x xs ih =>
    obtain ⟨y, ys, rfl⟩ : ∃ y zs, ys = y :: zs :=
      List.exists_cons_of_length_eq_add_one hlen.symm
    simp only [List.flatMap_cons, List.append_assoc] at h
    obtain ⟨rfl, hrest⟩ := he h
    obtain ⟨rfl, hrs⟩ := ih (by simpa using hlen) hrest
    exact ⟨rfl, hrs⟩

/-- Equally many self-delimiting words joined by a separator determine each other. -/
theorem intercalate_cancel (he : SelfDelimiting e) (sep : List α) {xs ys : List β}
    (hlen : xs.length = ys.length)
    (h : sep.intercalate (xs.map e) = sep.intercalate (ys.map e)) : xs = ys := by
  induction xs generalizing ys with
  | nil => exact (List.length_eq_zero_iff.mp hlen.symm).symm
  | cons x xs ih =>
    obtain ⟨y, ys, rfl⟩ : ∃ y zs, ys = y :: zs :=
      List.exists_cons_of_length_eq_add_one hlen.symm
    have hlen' : xs.length = ys.length := by simpa using hlen
    cases xs with
    | nil =>
      obtain rfl : ys = [] := List.length_eq_zero_iff.mp hlen'.symm
      simp only [List.map_cons, List.map_nil, List.intercalate_singleton] at h
      rw [he.injective h]
    | cons x' xs =>
      obtain ⟨y', ys, rfl⟩ : ∃ y zs, ys = y :: zs :=
        List.exists_cons_of_length_eq_add_one hlen'.symm
      simp only [List.map_cons, List.intercalate_cons_cons, List.append_assoc] at h
      obtain ⟨rfl, hrest⟩ := he h
      have hrest' := List.append_cancel_left hrest
      rw [ih hlen' (by simpa only [List.map_cons] using hrest')]

/-- Self-delimiting words that are never empty can be read off a text of unknown length. -/
theorem flatMap_injective (he : SelfDelimiting e) (hne : ∀ b, e b ≠ []) :
    Function.Injective fun xs : List β => xs.flatMap e := by
  intro xs ys h
  induction xs generalizing ys with
  | nil =>
    cases ys with
    | nil => rfl
    | cons y ys => exact absurd (List.append_eq_nil_iff.mp h.symm).1 (hne y)
  | cons x xs ih =>
    cases ys with
    | nil => exact absurd (List.append_eq_nil_iff.mp h).1 (hne x)
    | cons y ys =>
      obtain ⟨rfl, hrest⟩ := he h
      rw [ih hrest]

end SelfDelimiting

/-! ## Terminated words -/

/-- Two texts without letters of a kind, each followed by nothing or by such a letter, are told
apart. -/
theorem append_cancel_of_forall_not {p : α → Prop} {x y r s : List α} (hx : ∀ a ∈ x, ¬p a)
    (hy : ∀ a ∈ y, ¬p a) (hr : ∀ a ∈ r.head?, p a) (hs : ∀ a ∈ s.head?, p a)
    (h : x ++ r = y ++ s) : x = y ∧ r = s := by
  induction x generalizing y with
  | nil =>
    cases y with
    | nil => exact ⟨rfl, h⟩
    | cons b y =>
      have hb : p b := hr b (by rw [List.nil_append] at h; simp [h])
      exact absurd hb (hy b List.mem_cons_self)
  | cons a x ih =>
    cases y with
    | nil =>
      have ha : p a := hs a (by rw [List.nil_append] at h; simp [← h])
      exact absurd ha (hx a List.mem_cons_self)
    | cons b y =>
      simp only [List.cons_append, List.cons.injEq] at h
      obtain ⟨rfl, hrest⟩ := h
      obtain ⟨rfl, hrs⟩ := ih (fun c hc => hx c (List.mem_cons_of_mem _ hc))
        (fun c hc => hy c (List.mem_cons_of_mem _ hc)) hrest
      exact ⟨rfl, hrs⟩

/-- Two texts without the letter `c`, each followed by nothing or by a `c`, are told apart. -/
theorem append_cancel_of_not_mem {c : α} {x y r s : List α} (hx : c ∉ x) (hy : c ∉ y)
    (hr : ∀ a ∈ r.head?, a = c) (hs : ∀ a ∈ s.head?, a = c) (h : x ++ r = y ++ s) :
    x = y ∧ r = s := by
  have hnot : ∀ {z : List α}, c ∉ z → ∀ a ∈ z, ¬a = c := by
    rintro z hz a ha rfl
    exact hz ha
  exact append_cancel_of_forall_not (hnot hx) (hnot hy) hr hs h

/-- An injective code closed by a letter it never uses is self-delimiting. -/
theorem selfDelimiting_terminated {e : β → List α} (he : Function.Injective e) {c : α}
    (hc : ∀ b, c ∉ e b) : SelfDelimiting fun b => e b ++ [c] := by
  intro a b r s h
  simp only [List.append_assoc, List.singleton_append] at h
  obtain ⟨hab, hrs⟩ := append_cancel_of_not_mem (hc a) (hc b) (by simp) (by simp) h
  exact ⟨he hab, (List.cons.inj hrs).2⟩

/-! ## Length-prefixed words -/

/-- A prefix of equal weight is the whole word when every letter weighs at least one. -/
theorem append_cancel_of_weight_eq {w : α → ℕ} (hw : ∀ a, 0 < w a) {x y r s : List α}
    (hxy : (x.map w).sum = (y.map w).sum) (h : x ++ r = y ++ s) : x = y ∧ r = s := by
  have nil_of_sum_le : ∀ {l t : List α}, (l.map w).sum = ((l ++ t).map w).sum → t = [] := by
    intro l t ht
    rw [List.map_append, List.sum_append] at ht
    cases t with
    | nil => rfl
    | cons a t =>
      have hpos := hw a
      rw [List.map_cons, List.sum_cons] at ht
      omega
  rcases List.append_eq_append_iff.mp h with ⟨t, rfl, rfl⟩ | ⟨t, rfl, rfl⟩
  · rw [nil_of_sum_le hxy]
    simp
  · rw [nil_of_sum_le hxy.symm]
    simp

/-- A payload behind a self-delimiting header that names its weight is self-delimiting. -/
theorem SelfDelimiting.lengthPrefixed {header : ℕ → List α} (hh : SelfDelimiting header)
    {w : α → ℕ} (hw : ∀ a, 0 < w a) :
    SelfDelimiting fun x : List α => header (x.map w).sum ++ x := by
  intro x y r s h
  simp only [List.append_assoc] at h
  obtain ⟨hxy, hrest⟩ := hh h
  exact append_cancel_of_weight_eq hw hxy hrest

end Encoding
