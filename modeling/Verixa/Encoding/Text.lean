import Mathlib
import Verixa.Encoding.SelfDelimiting

/-!
# Texts: decimal numerals, UTF-8 lengths and UTF-16 order

Facts about texts that any canonical serialisation rests on.

* Decimal numerals, plain and padded with leading zeros, determine the number and consist of
  digits, so closing one with a non-digit gives a self-delimiting code.
* `framed` puts the UTF-8 byte length of a text and a colon in front of it; it is self-delimiting
  whatever the text contains.
* `utf16CodeUnits` is the sequence of UTF-16 code units of a text.  It is injective, hence
  comparing texts by their code units (the default order of a JavaScript array sort) is a linear
  order, and sorting a list of texts by it depends only on which texts the list holds.
* `trim` removes white space at both ends of a text, and `isBlank` says that nothing is left.
* A `LowerCasing` is a function on texts known to replace ASCII capitals.
-/

namespace Encoding

/-! ## Letters -/

section Letters

variable {c : Char}

/-- A letter is no surrogate. -/
theorem toNat_valid (c : Char) :
    c.toNat < 0xD800 ∨ 0xDFFF < c.toNat ∧ c.toNat < 0x110000 := c.valid

theorem toNat_lt (c : Char) : c.toNat < 0x110000 := by
  have hvalid := toNat_valid c
  omega

/-- The code points of the digits. -/
theorem isDigit_iff : c.isDigit = true ↔ 48 ≤ c.toNat ∧ c.toNat ≤ 57 := by
  simp only [Char.isDigit, Bool.and_eq_true, decide_eq_true_eq, ge_iff_le, UInt32.le_iff_toNat_le]
  exact Iff.rfl

/-- The code points of the Latin letters and the digits. -/
theorem isAlphanum_iff : c.isAlphanum = true ↔
    65 ≤ c.toNat ∧ c.toNat ≤ 90 ∨ 97 ≤ c.toNat ∧ c.toNat ≤ 122 ∨ 48 ≤ c.toNat ∧ c.toNat ≤ 57 := by
  simp only [Char.isAlphanum, Char.isAlpha, Char.isUpper, Char.isLower, Bool.or_eq_true,
    Bool.and_eq_true, decide_eq_true_eq, ge_iff_le, UInt32.le_iff_toNat_le, isDigit_iff, or_assoc]
  exact Iff.rfl

end Letters

/-- What stands in joined texts stands in one of them or in the separator. -/
theorem mem_intercalate {α : Type} {separator : List α} {a : α} {parts : List (List α)}
    (h : a ∈ separator.intercalate parts) : a ∈ separator ∨ ∃ part ∈ parts, a ∈ part := by
  induction parts with
  | nil => cases h
  | cons part parts ih =>
    rcases parts with _ | ⟨next, parts⟩
    · rw [List.intercalate_singleton] at h
      exact .inr ⟨part, List.mem_cons_self, h⟩
    · rw [List.intercalate_cons_cons, List.mem_append, List.mem_append] at h
      rcases h with (hpart | hseparator) | hrest
      · exact .inr ⟨part, List.mem_cons_self, hpart⟩
      · exact .inl hseparator
      · exact (ih hrest).imp_right fun ⟨part, hpart, hmem⟩ =>
          ⟨part, List.mem_cons_of_mem _ hpart, hmem⟩

/-! ## Decimal numerals -/

/-- A decimal numeral consists of digits. -/
theorem isDigit_of_mem_repr {n : ℕ} {c : Char} (hc : c ∈ (Nat.repr n).toList) :
    c.isDigit = true := by
  rw [Nat.toList_repr] at hc
  exact Nat.isDigit_of_mem_toDigits (by decide) (by decide) hc

/-- Decimal numerals, read as letter sequences, determine the number. -/
theorem toList_repr_injective : Function.Injective fun n : ℕ => (Nat.repr n).toList :=
  fun _ _ h => Nat.repr_injective (String.toList_injective h)

/-- A decimal numeral closed by a non-digit is self-delimiting. -/
theorem selfDelimiting_repr {c : Char} (hc : c.isDigit = false) :
    SelfDelimiting fun n : ℕ => (Nat.repr n).toList ++ [c] := by
  refine selfDelimiting_terminated toList_repr_injective fun n hmem => ?_
  rw [isDigit_of_mem_repr hmem] at hc
  exact Bool.noConfusion hc

/-- `String(n).padStart(width, "0")`: the decimal numeral of `n`, filled up with zeros in front. -/
def padded (width n : ℕ) : String :=
  String.ofList ((Nat.repr n).toList.leftpad width '0')

/-- The letters of a padded numeral. -/
theorem toList_padded (width n : ℕ) :
    (padded width n).toList
      = List.replicate (width - (Nat.repr n).toList.length) '0' ++ (Nat.repr n).toList := by
  simp [padded, List.leftpad]

/-- A padded numeral determines the number. -/
theorem padded_injective (width : ℕ) : Function.Injective (padded width) := by
  intro n m h
  have value : ∀ k, Nat.ofDigitChars 10 (padded width k).toList 0 = k := by
    intro k
    rw [toList_padded, Nat.ofDigitChars_append, Nat.ofDigitChars_replicate_zero, Nat.mul_zero,
      Nat.toList_repr, Nat.ofDigitChars_ten_toDigits]
  rw [← value n, h, value m]

/-- A padded numeral consists of digits. -/
theorem isDigit_of_mem_padded {width n : ℕ} {c : Char} (hc : c ∈ (padded width n).toList) :
    c.isDigit = true := by
  rw [toList_padded, List.mem_append] at hc
  rcases hc with hc | hc
  · rw [List.eq_of_mem_replicate hc]
    decide
  · exact isDigit_of_mem_repr hc

/-- A padded numeral is not empty. -/
theorem padded_toList_ne_nil (width n : ℕ) : (padded width n).toList ≠ [] := by
  rw [toList_padded, Nat.toList_repr]
  simp

/-- A numeral of at most so many digits is filled up to just as many. -/
theorem length_padded {width n : ℕ} (hwidth : 0 < width) (h : n < 10 ^ width) :
    (padded width n).toList.length = width := by
  have hdigits := (Nat.length_toDigits_le_iff (b := 10) (by decide) hwidth).mpr h
  rw [toList_padded, List.length_append, List.length_replicate, Nat.toList_repr]
  omega

/-- A padded numeral closed by a non-digit is self-delimiting. -/
theorem selfDelimiting_padded (width : ℕ) {c : Char} (hc : c.isDigit = false) :
    SelfDelimiting fun n : ℕ => (padded width n).toList ++ [c] := by
  refine selfDelimiting_terminated
    (fun _ _ h => padded_injective width (String.toList_injective h)) fun n hmem => ?_
  rw [isDigit_of_mem_padded hmem] at hc
  exact Bool.noConfusion hc

/-! ## UTF-8 lengths and framed texts -/

/-- The UTF-8 length of a text is the sum of the UTF-8 lengths of its letters. -/
theorem utf8ByteSize_eq_sum (s : String) :
    s.utf8ByteSize = (s.toList.map Char.utf8Size).sum := by
  have h : ∀ l : List Char, String.utf8Len l = (l.map Char.utf8Size).sum := by
    intro l
    induction l with
    | nil => rfl
    | cons c l ih =>
      rw [String.utf8Len_cons, ih, List.map_cons, List.sum_cons, Nat.add_comm]
  rw [← h, ← String.utf8ByteSize_ofList, String.ofList_toList]

/-- A text behind its own byte length: `byteLength:text`. -/
def framed (s : String) : String :=
  Nat.repr s.utf8ByteSize ++ ":" ++ s

/-- Framed texts are self-delimiting: nothing inside the text can be read as framing. -/
theorem selfDelimiting_framed : SelfDelimiting fun s : String => (framed s).toList := by
  have hcode : SelfDelimiting fun l : List Char =>
      ((Nat.repr (l.map Char.utf8Size).sum).toList ++ [':']) ++ l :=
    (selfDelimiting_repr (c := ':') (by decide)).lengthPrefixed Char.utf8Size_pos
  have heq : (fun s : String => (framed s).toList) = fun s : String =>
      ((Nat.repr (s.toList.map Char.utf8Size).sum).toList ++ [':']) ++ s.toList := by
    funext s
    simp [framed, utf8ByteSize_eq_sum]
  rw [heq]
  exact hcode.comp fun _ _ h => String.toList_injective h

/-! ## UTF-16 code units -/

/-- The UTF-16 code units of one Unicode scalar value: itself, or a surrogate pair. -/
def utf16OfChar (c : Char) : List ℕ :=
  if c.toNat < 0x10000 then [c.toNat]
  else [0xD800 + (c.toNat - 0x10000) / 0x400, 0xDC00 + (c.toNat - 0x10000) % 0x400]

/-- The UTF-16 code units of a text. -/
def utf16CodeUnits (s : String) : List ℕ :=
  s.toList.flatMap utf16OfChar

/-- `s.length` of a JavaScript string: the number of its UTF-16 code units. -/
def utf16Length (s : String) : ℕ :=
  (utf16CodeUnits s).length

/-- Surrogates are not scalar values, so the code units of one letter can be read off a text. -/
theorem selfDelimiting_utf16OfChar : SelfDelimiting utf16OfChar := by
  intro a b r s h
  have ext : a.toNat = b.toNat → a = b := fun h => Char.toNat_inj.mp h
  have ha := toNat_valid a
  have hb := toNat_valid b
  unfold utf16OfChar at h
  split at h <;> split at h <;>
    simp only [List.cons_append, List.nil_append, List.cons.injEq] at h
  · exact ⟨ext h.1, h.2⟩
  · omega
  · omega
  · exact ⟨ext (by omega), h.2.2⟩

/-- The code units of a text determine the text. -/
theorem utf16CodeUnits_injective : Function.Injective utf16CodeUnits := by
  intro s t h
  have hne : ∀ c, utf16OfChar c ≠ [] := by
    intro c
    unfold utf16OfChar
    split <;> simp
  exact String.toList_injective (selfDelimiting_utf16OfChar.flatMap_injective hne h)

/-- Whether `s` comes no later than `t` in the order of UTF-16 code units. -/
def codeUnitLe (s t : String) : Bool :=
  decide (utf16CodeUnits s ≤ utf16CodeUnits t)

/-- `keys.sort()`: the texts of a list in ascending order of their UTF-16 code units. -/
def sortByCodeUnits (l : List String) : List String :=
  l.mergeSort codeUnitLe

@[simp] theorem mem_sortByCodeUnits {l : List String} {s : String} :
    s ∈ sortByCodeUnits l ↔ s ∈ l := by
  simp [sortByCodeUnits]

@[simp] theorem length_sortByCodeUnits (l : List String) :
    (sortByCodeUnits l).length = l.length := by
  simp [sortByCodeUnits]

/-- Sorting forgets the order in which the texts were listed. -/
theorem sortByCodeUnits_eq_of_perm {l m : List String} (h : l.Perm m) :
    sortByCodeUnits l = sortByCodeUnits m := by
  have htrans : ∀ a b c : String, codeUnitLe a b → codeUnitLe b c → codeUnitLe a c := by
    intro a b c hab hbc
    simp only [codeUnitLe, decide_eq_true_eq] at *
    exact le_trans hab hbc
  have htotal : ∀ a b : String, (codeUnitLe a b || codeUnitLe b a) = true := by
    intro a b
    simp only [codeUnitLe, Bool.or_eq_true, decide_eq_true_eq]
    exact le_total _ _
  have hanti : ∀ a b : String, codeUnitLe a b → codeUnitLe b a → a = b := by
    intro a b hab hba
    simp only [codeUnitLe, decide_eq_true_eq] at hab hba
    exact utf16CodeUnits_injective (le_antisymm hab hba)
  have hperm : (sortByCodeUnits l).Perm (sortByCodeUnits m) :=
    (List.mergeSort_perm l _).trans (h.trans (List.mergeSort_perm m _).symm)
  refine hperm.eq_of_pairwise (fun a b _ _ => hanti a b) ?_ ?_
  · exact List.pairwise_mergeSort htrans htotal l
  · exact List.pairwise_mergeSort htrans htotal m

/-! ## White space -/

/-- What `trim` removes: white space and line terminators. -/
def isWhiteSpace (c : Char) : Bool :=
  (0x9 ≤ c.val && c.val ≤ 0xd) || c.val = 0x20 || c.val = 0xa0 || c.val = 0x1680 ||
    (0x2000 ≤ c.val && c.val ≤ 0x200a) || c.val = 0x2028 || c.val = 0x2029 || c.val = 0x202f ||
    c.val = 0x205f || c.val = 0x3000 || c.val = 0xfeff

/-- `text.trim() === ""`. -/
def isBlank (text : String) : Bool := text.toList.all isWhiteSpace

/-- `text.trim()`. -/
def trim (text : String) : String :=
  String.ofList ((text.toList.dropWhile isWhiteSpace).rdropWhile isWhiteSpace)

/-- A text without white space has nothing to be trimmed. -/
theorem trim_of_forall_not_isWhiteSpace {text : String}
    (h : ∀ c ∈ text.toList, isWhiteSpace c = false) : trim text = text := by
  have hdrop : text.toList.dropWhile isWhiteSpace = text.toList := by
    rw [List.dropWhile_eq_self_iff]
    intro hlength
    simp [h _ (List.getElem_mem hlength)]
  have hrdrop : text.toList.rdropWhile isWhiteSpace = text.toList := by
    rw [List.rdropWhile_eq_self_iff]
    intro hne
    simp [h _ (List.getLast_mem hne)]
  rw [trim, hdrop, hrdrop, String.ofList_toList]

/-- Blanks around a text without white space are what is trimmed. -/
theorem trim_blanks {text : String} {before letters behind : List Char}
    (htext : text.toList = before ++ (letters ++ behind))
    (hbefore : ∀ c ∈ before, isWhiteSpace c = true) (hbehind : ∀ c ∈ behind, isWhiteSpace c = true)
    (hne : letters ≠ []) (hletters : ∀ c ∈ letters, isWhiteSpace c = false) :
    trim text = String.ofList letters := by
  obtain ⟨first, rest, rfl⟩ := List.exists_cons_of_ne_nil hne
  have hfirst : ¬ isWhiteSpace first = true := by
    rw [hletters first List.mem_cons_self]
    exact Bool.false_ne_true
  have hlast : ¬ isWhiteSpace ((first :: rest).getLast hne) = true := by
    rw [hletters _ (List.getLast_mem hne)]
    exact Bool.false_ne_true
  rw [trim, htext, List.dropWhile_append_of_pos hbefore, List.cons_append,
    List.dropWhile_cons_of_neg hfirst, ← List.cons_append, List.rdropWhile, List.reverse_append,
    List.dropWhile_append_of_pos fun c hc => hbehind c (List.mem_reverse.mp hc), ← List.rdropWhile,
    (List.rdropWhile_eq_self_iff).mpr fun _ => hlast]

/-! ## Letter case -/

/-- `text.toLowerCase()`: some function on texts which, on texts of ASCII letters, replaces the
capital letters. -/
structure LowerCasing where
  toLowerCase : String → String
  ascii : ∀ text : String, (∀ c ∈ text.toList, c.toNat < 0x80) →
    toLowerCase text = String.ofList (text.toList.map Char.toLower)

/-- Texts of ASCII letters without capitals stay as they are. -/
theorem LowerCasing.toLowerCase_of_lower (casing : LowerCasing) {text : String}
    (h : ∀ c ∈ text.toList, c.toNat < 0x80 ∧ c.toLower = c) : casing.toLowerCase text = text := by
  rw [casing.ascii text fun c hc => (h c hc).1]
  have hmap : text.toList.map Char.toLower = text.toList := by
    conv_rhs => rw [← List.map_id text.toList]
    exact List.map_congr_left fun c hc => (h c hc).2
  rw [hmap, String.ofList_toList]

/-- The function that replaces the ASCII capitals and nothing else. -/
def asciiLowerCasing : LowerCasing where
  toLowerCase text := String.ofList (text.toList.map Char.toLower)
  ascii _ _ := rfl

end Encoding
