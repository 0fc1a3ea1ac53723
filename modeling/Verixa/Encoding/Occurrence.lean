import Verixa.Encoding.Text

/-!
# Characters that occur in a text

`Occurs p text` says that some character of `text` satisfies `p`.  It distributes over the ways in
which texts are put together, and numerals and escapes have no character outside printable ASCII.
-/

namespace Encoding

/-- Some character of the text satisfies `p`. -/
def Occurs (p : Char → Bool) (text : String) : Prop := ∃ c ∈ text.toList, p c = true

/-- The printable characters of ASCII, the space among them. -/
def isPrintable (c : Char) : Bool := decide (0x20 ≤ c.toNat ∧ c.toNat ≤ 0x7e)

variable {p : Char → Bool}

theorem not_occurs_iff {text : String} : ¬ Occurs p text ↔ ∀ c ∈ text.toList, p c = false := by
  simp [Occurs]

/-! ## Composition -/

theorem occurs_append {text text' : String} :
    Occurs p (text ++ text') ↔ Occurs p text ∨ Occurs p text' := by
  simp only [Occurs, String.toList_append, List.mem_append, or_and_right, exists_or]

theorem occurs_singleton {c : Char} : Occurs p (String.singleton c) ↔ p c = true := by
  simp [Occurs]

theorem occurs_join {texts : List String} :
    Occurs p (String.join texts) ↔ ∃ text ∈ texts, Occurs p text := by
  simp only [Occurs, String.toList_join, List.mem_flatMap]
  constructor
  · rintro ⟨c, ⟨text, htext, hc⟩, hp⟩
    exact ⟨text, htext, c, hc, hp⟩
  · rintro ⟨text, htext, c, hc, hp⟩
    exact ⟨c, ⟨text, htext, hc⟩, hp⟩

/-- What occurs between texts occurs in one of them, or in what separates them. -/
theorem occurs_intercalate {separator : String} (hs : ¬ Occurs p separator)
    {texts : List String} :
    Occurs p (separator.intercalate texts) ↔ ∃ text ∈ texts, Occurs p text := by
  induction texts with
  | nil => simp [Occurs]
  | cons first others ih =>
    cases others with
    | nil => simp
    | cons second others =>
      rw [String.intercalate_cons_cons, occurs_append, occurs_append, ih]
      simp [hs]

/-- What occurs in a text rewritten character by character. -/
theorem occurs_join_map {f : Char → String} {q : Char → Bool}
    (h : ∀ c, Occurs p (f c) ↔ q c = true) (text : String) :
    Occurs p (String.join (text.toList.map f)) ↔ Occurs q text := by
  rw [occurs_join]
  constructor
  · rintro ⟨piece, hpiece, hoccurs⟩
    obtain ⟨c, hc, rfl⟩ := List.mem_map.mp hpiece
    exact ⟨c, hc, (h c).mp hoccurs⟩
  · rintro ⟨c, hc, hq⟩
    exact ⟨f c, List.mem_map_of_mem hc, (h c).mpr hq⟩

/-! ## Printable texts -/

theorem isPrintable_of_isDigit {c : Char} (h : c.isDigit = true) : isPrintable c = true := by
  have hdigit := isDigit_iff.mp h
  simp only [isPrintable, decide_eq_true_eq]
  omega

/-- The character of a digit is printable, also where there is no such digit. -/
theorem isPrintable_digitChar (d : ℕ) : isPrintable (Nat.digitChar d) = true := by
  by_cases hd : d < 16
  · interval_cases d <;> decide
  · have hnone : Nat.digitChar d = '*' := Nat.digitChar_eq_star.mpr (Nat.not_lt.mp hd)
    rw [hnone]
    decide

/-- A digit is the character of a number. -/
theorem exists_digitChar_of_mem_toDigits {b n : ℕ} {c : Char} (h : c ∈ Nat.toDigits b n) :
    ∃ d, c = Nat.digitChar d := by
  have hcore : ∀ fuel n cs, (∀ c ∈ cs, ∃ d, c = Nat.digitChar d) →
      ∀ c ∈ Nat.toDigitsCore b fuel n cs, ∃ d, c = Nat.digitChar d := by
    intro fuel
    induction fuel with
    | zero => exact fun n cs hcs => hcs
    | succ fuel ih =>
      intro n cs hcs
      have hcons : ∀ c ∈ Nat.digitChar (n % b) :: cs, ∃ d, c = Nat.digitChar d := by
        intro c hc
        rcases List.mem_cons.mp hc with rfl | hc
        · exact ⟨_, rfl⟩
        · exact hcs c hc
      rw [Nat.toDigitsCore]
      split
      · exact hcons
      · exact ih _ _ hcons
  exact hcore _ _ _ (by simp) c h

section Spares

variable (hspares : ∀ c, isPrintable c = true → p c = false)
include hspares

/-- Nothing outside printable ASCII occurs in a text within it. -/
theorem not_occurs_of_printable {text : String} (h : ∀ c ∈ text.toList, isPrintable c = true) :
    ¬ Occurs p text :=
  not_occurs_iff.mpr fun c hc => hspares c (h c hc)

theorem not_occurs_ofList {cs : List Char} (h : ∀ c ∈ cs, isPrintable c = true) :
    ¬ Occurs p (String.ofList cs) :=
  not_occurs_of_printable hspares fun c hc => h c (by simpa using hc)

theorem not_occurs_padded (width n : ℕ) : ¬ Occurs p (padded width n) :=
  not_occurs_of_printable hspares fun _ hc => isPrintable_of_isDigit (isDigit_of_mem_padded hc)

theorem not_occurs_repr (n : ℕ) : ¬ Occurs p (Nat.repr n) :=
  not_occurs_of_printable hspares fun _ hc => isPrintable_of_isDigit (isDigit_of_mem_repr hc)

theorem not_occurs_toString_int (n : ℤ) : ¬ Occurs p (toString n) := by
  have hsign : ¬ Occurs p "-" := not_occurs_of_printable hspares (by simp [isPrintable])
  rw [Int.toString_eq_repr, Int.repr_eq_if]
  split
  · exact not_occurs_repr hspares _
  · rw [occurs_append, not_or]
    exact ⟨hsign, not_occurs_repr hspares _⟩

/-- Hexadecimal digits filled up with zeros. -/
theorem not_occurs_hexadecimal (width n : ℕ) :
    ¬ Occurs p (String.ofList ((Nat.toDigits 16 n).leftpad width '0')) := by
  refine not_occurs_ofList hspares fun c hc => ?_
  rw [List.leftpad, List.mem_append] at hc
  rcases hc with hzero | hdigit
  · rw [List.eq_of_mem_replicate hzero]
    decide
  · obtain ⟨d, rfl⟩ := exists_digitChar_of_mem_toDigits hdigit
    exact isPrintable_digitChar d

end Spares

end Encoding
