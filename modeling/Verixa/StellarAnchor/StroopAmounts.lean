import Verixa.Arithmetic.Binary64
import Verixa.Encoding.Json

/-!
# Stellar amounts in stroops

`xlmToStroops` reads an amount such as `100.0000000` and gives the number of stroops, in the
arithmetic of doubles.  Its guard is on the whole part alone, and what is multiplied and added
behind it can leave the range in which doubles are exact.  `isExact_xlmToStroops_iff` says for
which amounts the result is the number of stroops and no other amount has it.
-/

namespace Verixa.StellarAnchor

open Encoding

/-- `Number(digits)`. -/
def numberOf (digits : List Char) : ℚ := Binary64.round (Json.ofDigits digits)

/-- `Number.isSafeInteger(value)`. -/
def isSafeInteger (value : ℚ) : Bool := value.isInt && decide (|value| ≤ 2 ^ 53 - 1)

/-- The groups of `/^(\d+)(?:\.(\d{1,7}))?$/u`, where it matches. -/
def matchAmount (text : List Char) : Option (List Char × Option (List Char)) :=
  let whole := text.takeWhile Char.isDigit
  if whole = [] then none
  else
    match text.dropWhile Char.isDigit with
    | [] => some (whole, none)
    | c :: fraction =>
      if c = '.' ∧ (∀ d ∈ fraction, d.isDigit) ∧ 1 ≤ fraction.length ∧ fraction.length ≤ 7 then
        some (whole, some fraction)
      else none

/-- `xlmToStroops`. -/
def xlmToStroops (amount : String) : Option ℚ :=
  match matchAmount (trim amount).toList with
  | none => none
  | some (whole, fraction) =>
    let wholeNumber := numberOf whole
    let fractionDigits := (fraction.getD []).rightpad 7 '0'
    if isSafeInteger wholeNumber then
      some (Binary64.round (Binary64.round (wholeNumber * 10 ^ 7) + numberOf fractionDigits))
    else none

/-! ## Amounts -/

/-- The text is a plain decimal amount of at most seven places, and this is the amount. -/
def IsAmount (text : List Char) (amount : ℚ) : Prop :=
  ∃ whole, whole ≠ [] ∧ (∀ c ∈ whole, c.isDigit) ∧
    ((text = whole ∧ amount = Json.ofDigits whole) ∨
      ∃ fraction : List Char, text = whole ++ '.' :: fraction ∧ (∀ c ∈ fraction, c.isDigit) ∧
        1 ≤ fraction.length ∧ fraction.length ≤ 7 ∧
        amount = Json.ofDigits whole + Json.ofDigits fraction / 10 ^ fraction.length)

/-- What the pattern matches. -/
theorem matchAmount_eq_some_iff {text whole : List Char} {fraction : Option (List Char)} :
    matchAmount text = some (whole, fraction) ↔
      whole ≠ [] ∧ (∀ c ∈ whole, c.isDigit) ∧
        ((text = whole ∧ fraction = none) ∨
          ∃ digits, text = whole ++ '.' :: digits ∧ (∀ c ∈ digits, c.isDigit) ∧
            1 ≤ digits.length ∧ digits.length ≤ 7 ∧ fraction = some digits) := by
  constructor
  · intro h
    have htext := List.takeWhile_append_dropWhile (p := Char.isDigit) (l := text)
    have hdigits : ∀ c ∈ text.takeWhile Char.isDigit, c.isDigit :=
      fun c hc => List.mem_takeWhile_imp hc
    simp only [matchAmount] at h
    split at h
    · cases h
    · rename_i hne
      split at h
      · rename_i hrest
        obtain ⟨rfl, rfl⟩ := Prod.mk.inj (Option.some.inj h)
        rw [hrest, List.append_nil] at htext
        exact ⟨hne, hdigits, .inl ⟨htext.symm, rfl⟩⟩
      · rename_i c rest hrest
        split at h
        · rename_i hfraction
          obtain ⟨rfl, hall, hone, hseven⟩ := hfraction
          obtain ⟨rfl, rfl⟩ := Prod.mk.inj (Option.some.inj h)
          rw [hrest] at htext
          exact ⟨hne, hdigits, .inr ⟨rest, htext.symm, hall, hone, hseven, rfl⟩⟩
        · cases h
  · rintro ⟨hne, hdigits, ⟨rfl, rfl⟩ | ⟨digits, rfl, hall, hone, hseven, rfl⟩⟩
    · have htake : text.takeWhile Char.isDigit = text := List.takeWhile_eq_self_iff.mpr hdigits
      have hdrop : text.dropWhile Char.isDigit = [] := List.dropWhile_eq_nil_iff.mpr hdigits
      simp only [matchAmount, htake, hdrop, if_neg hne]
    · have hpoint : ¬ Char.isDigit '.' = true := by decide
      have htake : (whole ++ '.' :: digits).takeWhile Char.isDigit = whole := by
        rw [List.takeWhile_append_of_pos hdigits, List.takeWhile_cons_of_neg hpoint,
          List.append_nil]
      have hdrop : (whole ++ '.' :: digits).dropWhile Char.isDigit = '.' :: digits := by
        rw [List.dropWhile_append_of_pos hdigits, List.dropWhile_cons_of_neg hpoint]
      simp only [matchAmount, htake, hdrop, if_neg hne]
      rw [if_pos ⟨trivial, hall, hone, hseven⟩]

/-- The number that digits denote is below the power of ten with as many zeros. -/
theorem ofDigits_lt {digits : List Char} (h : ∀ c ∈ digits, c.isDigit) :
    Json.ofDigits digits < 10 ^ digits.length := by
  induction digits with
  | nil => decide
  | cons c digits ih =>
    have hrest := ih fun d hd => h d (List.mem_cons_of_mem c hd)
    have hdigit : c.toNat - '0'.toNat ≤ 9 := by
      have hc := isDigit_iff.mp (h c List.mem_cons_self)
      have hzero : '0'.toNat = 48 := rfl
      omega
    rw [Json.ofDigits] at hrest ⊢
    rw [Nat.ofDigitChars_cons, Nat.ofDigitChars_eq_ofDigitChars_zero, List.length_cons, pow_succ,
      Nat.mul_zero, Nat.zero_add]
    have hscaled := Nat.mul_le_mul_left (10 ^ digits.length) hdigit
    omega

/-- Zeros put behind digits scale the number. -/
theorem ofDigits_rightpad {digits : List Char} {width : ℕ} :
    Json.ofDigits (digits.rightpad width '0') =
      10 ^ (width - digits.length) * Json.ofDigits digits := by
  rw [List.rightpad, Json.ofDigits, Json.ofDigits, Nat.ofDigitChars_append,
    Nat.ofDigitChars_replicate_zero]

/-- The number of stroops of the amount that the pattern has matched. -/
def stroopsMatched (whole : List Char) (fraction : Option (List Char)) : ℕ :=
  Json.ofDigits whole * 10 ^ 7 + Json.ofDigits ((fraction.getD []).rightpad 7 '0')

/-- Seven digits of a fraction. -/
theorem fraction_lt {text whole : List Char} {fraction : Option (List Char)}
    (h : matchAmount text = some (whole, fraction)) :
    Json.ofDigits ((fraction.getD []).rightpad 7 '0') < 10 ^ 7 := by
  obtain ⟨-, -, ⟨-, rfl⟩ | ⟨digits, -, hall, -, hseven, rfl⟩⟩ := matchAmount_eq_some_iff.mp h
  · decide
  · have hdigits : ∀ c ∈ digits.rightpad 7 '0', c.isDigit := by
      intro c hc
      rcases List.mem_append.mp hc with hmem | hmem
      · exact hall c hmem
      · rw [List.eq_of_mem_replicate hmem]
        decide
    have hlt := ofDigits_lt hdigits
    have hlength : (digits.rightpad 7 '0').length = 7 := by
      rw [List.rightpad, List.length_append, List.length_replicate]
      omega
    rwa [hlength] at hlt

/-- The text is the amount that the pattern has matched, and no other. -/
theorem isAmount_iff_of_match {text whole : List Char} {fraction : Option (List Char)}
    (h : matchAmount text = some (whole, fraction)) {amount : ℚ} :
    IsAmount text amount ↔ amount * 10 ^ 7 = stroopsMatched whole fraction := by
  have hvalue : IsAmount text amount ↔ amount = Json.ofDigits whole +
      Json.ofDigits (fraction.getD []) / 10 ^ (fraction.getD []).length := by
    constructor
    · rintro ⟨whole', hne, hdigits, ⟨rfl, rfl⟩ | ⟨digits, rfl, hall, hone, hseven, rfl⟩⟩
      · have hmatch := matchAmount_eq_some_iff.mpr ⟨hne, hdigits, .inl ⟨rfl, rfl⟩⟩
        obtain ⟨rfl, rfl⟩ := Prod.mk.inj (Option.some.inj (hmatch.symm.trans h))
        simp [Json.ofDigits]
      · have hmatch := matchAmount_eq_some_iff.mpr
          ⟨hne, hdigits, .inr ⟨digits, rfl, hall, hone, hseven, rfl⟩⟩
        obtain ⟨rfl, rfl⟩ := Prod.mk.inj (Option.some.inj (hmatch.symm.trans h))
        rfl
    · intro hamount
      obtain ⟨hne, hdigits, ⟨rfl, rfl⟩ | ⟨digits, rfl, hall, hone, hseven, rfl⟩⟩ :=
        matchAmount_eq_some_iff.mp h
      · exact ⟨text, hne, hdigits, .inl ⟨rfl, by simpa [Json.ofDigits] using hamount⟩⟩
      · exact ⟨whole, hne, hdigits, .inr ⟨digits, rfl, hall, hone, hseven, hamount⟩⟩
  have hlength : (fraction.getD []).length ≤ 7 := by
    obtain ⟨-, -, ⟨-, rfl⟩ | ⟨digits, -, -, -, hseven, rfl⟩⟩ := matchAmount_eq_some_iff.mp h
    · decide
    · exact hseven
  have hscale : (10 : ℚ) ^ 7 =
      10 ^ (7 - (fraction.getD []).length) * 10 ^ (fraction.getD []).length := by
    rw [← pow_add, Nat.sub_add_cancel hlength]
  have hfraction : (10 : ℚ) ^ (7 - (fraction.getD []).length) * Json.ofDigits (fraction.getD []) =
      Json.ofDigits (fraction.getD []) / 10 ^ (fraction.getD []).length * 10 ^ 7 := by
    rw [hscale]
    field_simp
  have hstroops : (stroopsMatched whole fraction : ℚ) = (Json.ofDigits whole +
      Json.ofDigits (fraction.getD []) / 10 ^ (fraction.getD []).length) * 10 ^ 7 := by
    rw [stroopsMatched, ofDigits_rightpad, add_mul, ← hfraction, Nat.cast_add, Nat.cast_mul,
      Nat.cast_mul, Nat.cast_pow, Nat.cast_pow, Nat.cast_ofNat]
  rw [hvalue, hstroops]
  exact (mul_left_inj' (by norm_num)).symm

/-! ## The sum of doubles -/

/-- What is returned for a number of stroops. -/
def doubleSum (n : ℕ) : ℚ :=
  Binary64.round (Binary64.round ((n / 10 ^ 7 * 10 ^ 7 : ℕ) : ℚ) + (n % 10 ^ 7 : ℕ))

/-- The whole part passes the guard where it is below `2 ^ 53`. -/
theorem isSafeInteger_numberOf (digits : List Char) :
    isSafeInteger (numberOf digits) = decide (Json.ofDigits digits < 2 ^ 53) := by
  rcases lt_or_ge (Json.ofDigits digits) (2 ^ 53) with hsmall | hlarge
  · have hround : numberOf digits = Json.ofDigits digits :=
      (Binary64.representable_natCast hsmall).round_eq (Nat.cast_nonneg _)
    have hle : Json.ofDigits digits ≤ 2 ^ 53 - 1 := by omega
    have hcast : (Json.ofDigits digits : ℚ) ≤ 2 ^ 53 - 1 := by
      have hle' : (Json.ofDigits digits : ℚ) ≤ ((2 ^ 53 - 1 : ℕ) : ℚ) := by exact_mod_cast hle
      have hpow : ((2 ^ 53 - 1 : ℕ) : ℚ) = 2 ^ 53 - 1 := by norm_num
      rwa [hpow] at hle'
    rw [isSafeInteger, hround, Nat.abs_cast, decide_eq_true hcast, decide_eq_true hsmall]
    rfl
  · have hbound : ((2 ^ 53 : ℕ) : ℚ) ≤ numberOf digits := by
      refine Binary64.le_round (Nat.cast_nonneg _) ?_ (by exact_mod_cast hlarge)
      exact Binary64.representable_of_dvd (k := 1) (by decide) (by decide)
    have hpow : ((2 ^ 53 : ℕ) : ℚ) = 2 ^ 53 := by norm_num
    rw [hpow] at hbound
    have hsafe : ¬ |numberOf digits| ≤ 2 ^ 53 - 1 := by
      have hself := le_abs_self (numberOf digits)
      intro hle
      linarith
    rw [isSafeInteger, decide_eq_false hsafe, decide_eq_false (Nat.not_lt.mpr hlarge),
      Bool.and_false]

/-- What `xlmToStroops` returns for an amount. -/
theorem xlmToStroops_of_isAmount {text : String} {amount : ℚ}
    (h : IsAmount (trim text).toList amount) :
    ∃ n : ℕ, amount * 10 ^ 7 = n ∧
      xlmToStroops text = if n / 10 ^ 7 < 2 ^ 53 then some (doubleSum n) else none := by
  have hmatch : ∃ groups, matchAmount (trim text).toList = some groups := by
    obtain ⟨whole, hne, hdigits, ⟨htext, -⟩ | ⟨digits, htext, hall, hone, hseven, -⟩⟩ := h
    · exact ⟨(whole, none), matchAmount_eq_some_iff.mpr ⟨hne, hdigits, .inl ⟨htext, rfl⟩⟩⟩
    · exact ⟨(whole, some digits), matchAmount_eq_some_iff.mpr
        ⟨hne, hdigits, .inr ⟨digits, htext, hall, hone, hseven, rfl⟩⟩⟩
  obtain ⟨⟨whole, fraction⟩, hmatch⟩ := hmatch
  refine ⟨stroopsMatched whole fraction, (isAmount_iff_of_match hmatch).mp h, ?_⟩
  have hfraction := fraction_lt hmatch
  have hdiv : stroopsMatched whole fraction / 10 ^ 7 = Json.ofDigits whole := by
    rw [stroopsMatched]
    omega
  have hmod : stroopsMatched whole fraction % 10 ^ 7 =
      Json.ofDigits ((fraction.getD []).rightpad 7 '0') := by
    rw [stroopsMatched]
    omega
  rw [xlmToStroops, hmatch, doubleSum, hdiv, hmod]
  simp only [isSafeInteger_numberOf, decide_eq_true_eq]
  split
  · rename_i hsmall
    have hwhole : numberOf whole = Json.ofDigits whole :=
      (Binary64.representable_natCast hsmall).round_eq (Nat.cast_nonneg _)
    have hpart : numberOf ((fraction.getD []).rightpad 7 '0') =
        Json.ofDigits ((fraction.getD []).rightpad 7 '0') :=
      (Binary64.representable_natCast (hfraction.trans (by decide))).round_eq (Nat.cast_nonneg _)
    rw [hwhole, hpart, Nat.cast_mul, Nat.cast_pow, Nat.cast_ofNat]
  · rfl

/-- What is no amount is not read. -/
theorem xlmToStroops_of_not_isAmount {text : String}
    (h : ∀ amount, ¬ IsAmount (trim text).toList amount) : xlmToStroops text = none := by
  rcases hmatch : matchAmount (trim text).toList with _ | ⟨whole, fraction⟩
  · rw [xlmToStroops, hmatch]
  · refine absurd ((isAmount_iff_of_match hmatch).mpr ?_)
      (h ((stroopsMatched whole fraction : ℚ) / 10 ^ 7))
    exact div_mul_cancel₀ _ (by norm_num)

/-- No letter of an amount is white space. -/
theorem not_isWhiteSpace_of_amount {c : Char} (h : c.isDigit ∨ c = '.') :
    isWhiteSpace c = false := by
  have hval : c.val.toNat = c.toNat := rfl
  have hrange : c.toNat = 46 ∨ (48 ≤ c.toNat ∧ c.toNat ≤ 57) := by
    rcases h with hdigit | rfl
    · exact .inr (isDigit_iff.mp hdigit)
    · exact .inl rfl
  simp only [isWhiteSpace, ← UInt32.toNat_inj, UInt32.le_iff_toNat_le, UInt32.reduceToNat, hval,
    Bool.or_eq_false_iff, Bool.and_eq_false_iff, decide_eq_false_iff_not]
  omega

/-- Every number of stroops is written as an amount. -/
theorem exists_isAmount (n : ℕ) :
    ∃ text amount, IsAmount (trim text).toList amount ∧ amount * 10 ^ 7 = n := by
  have hwhole : ∀ c ∈ (Nat.repr (n / 10 ^ 7)).toList, c.isDigit := fun c hc =>
    isDigit_of_mem_repr hc
  have hfraction : ∀ c ∈ (padded 7 (n % 10 ^ 7)).toList, c.isDigit := fun c hc =>
    isDigit_of_mem_padded hc
  have hlength : (padded 7 (n % 10 ^ 7)).toList.length = 7 :=
    length_padded (by decide) (Nat.mod_lt n (by decide))
  have hne : (Nat.repr (n / 10 ^ 7)).toList ≠ [] := by
    rw [Nat.toList_repr]
    exact Nat.toDigits_ne_nil
  let letters := (Nat.repr (n / 10 ^ 7)).toList ++ '.' :: (padded 7 (n % 10 ^ 7)).toList
  have htrim : trim (String.ofList letters) = String.ofList letters := by
    refine trim_of_forall_not_isWhiteSpace fun c hc => ?_
    rw [String.toList_ofList, List.mem_append, List.mem_cons] at hc
    rcases hc with hc | hc | hc
    · exact not_isWhiteSpace_of_amount (.inl (hwhole c hc))
    · exact not_isWhiteSpace_of_amount (.inr hc)
    · exact not_isWhiteSpace_of_amount (.inl (hfraction c hc))
  have hmatch : matchAmount (trim (String.ofList letters)).toList =
      some ((Nat.repr (n / 10 ^ 7)).toList, some (padded 7 (n % 10 ^ 7)).toList) := by
    rw [htrim, String.toList_ofList]
    exact matchAmount_eq_some_iff.mpr
      ⟨hne, hwhole, .inr ⟨_, rfl, hfraction, by omega, by omega, rfl⟩⟩
  have hstroops : stroopsMatched (Nat.repr (n / 10 ^ 7)).toList
      (some (padded 7 (n % 10 ^ 7)).toList) = n := by
    have hwholeValue : Json.ofDigits (Nat.repr (n / 10 ^ 7)).toList = n / 10 ^ 7 := by
      rw [Nat.toList_repr, Json.ofDigits, Nat.ofDigitChars_ten_toDigits]
    have hfractionValue : Json.ofDigits (padded 7 (n % 10 ^ 7)).toList = n % 10 ^ 7 := by
      rw [toList_padded, Json.ofDigits, Nat.ofDigitChars_append, Nat.ofDigitChars_replicate_zero,
        Nat.mul_zero, Nat.toList_repr, Nat.ofDigitChars_ten_toDigits]
    rw [stroopsMatched, Option.getD_some, ofDigits_rightpad, hwholeValue, hfractionValue, hlength,
      Nat.sub_self, pow_zero, Nat.one_mul, Nat.div_add_mod']
  refine ⟨String.ofList letters, (n : ℚ) / 10 ^ 7, ?_, div_mul_cancel₀ _ (by norm_num)⟩
  rw [isAmount_iff_of_match hmatch, hstroops]
  exact div_mul_cancel₀ _ (by norm_num)

/-- As long as the product is exact, the sum is the rounded number of stroops. -/
theorem doubleSum_eq_round {n : ℕ} (h : n < 2 ^ 60) : doubleSum n = Binary64.round n := by
  have hdvd : 2 ^ 7 ∣ n / 10 ^ 7 * 10 ^ 7 := Dvd.dvd.mul_left (by decide) _
  have hproduct : Binary64.round ((n / 10 ^ 7 * 10 ^ 7 : ℕ) : ℚ) = (n / 10 ^ 7 * 10 ^ 7 : ℕ) :=
    (Binary64.representable_of_dvd hdvd
      ((Nat.div_mul_le_self n _).trans_lt h)).round_eq (Nat.cast_nonneg _)
  rw [doubleSum, hproduct, ← Nat.cast_add, Nat.div_add_mod']

/-- Large numbers of stroops have large sums. -/
theorem le_doubleSum {n : ℕ} (h : 2 ^ 60 ≤ n) : ((2 ^ 54 : ℕ) : ℚ) ≤ doubleSum n := by
  have hlimit : Binary64.Representable ((2 ^ 54 : ℕ) : ℚ) :=
    Binary64.representable_of_dvd (k := 2) (by decide) (by decide)
  have hproduct : 2 ^ 54 ≤ n / 10 ^ 7 * 10 ^ 7 := by omega
  have hround : ((2 ^ 54 : ℕ) : ℚ) ≤ Binary64.round ((n / 10 ^ 7 * 10 ^ 7 : ℕ) : ℚ) :=
    Binary64.le_round (Nat.cast_nonneg _) hlimit (by exact_mod_cast hproduct)
  refine Binary64.le_round (Nat.cast_nonneg _) hlimit (hround.trans ?_)
  exact le_add_of_nonneg_right (Nat.cast_nonneg _)

/-- From `2 ^ 54` stroops on, an exact sum is shared with the amount one stroop beside. -/
theorem exists_doubleSum_eq {n : ℕ} (hlow : 2 ^ 54 ≤ n) (h : doubleSum n = n) :
    ∃ m, m ≠ n ∧ m / 10 ^ 7 = n / 10 ^ 7 ∧ doubleSum m = n := by
  obtain ⟨product, hproduct⟩ := Binary64.exists_round_natCast (n / 10 ^ 7 * 10 ^ 7)
  have hsum : Binary64.round ((product + n % 10 ^ 7 : ℕ) : ℚ) = n := by
    rw [Nat.cast_add, ← hproduct]
    exact h
  have hrepresentable : Binary64.Representable n := by
    rw [← hsum]
    exact Binary64.representable_round (Nat.cast_nonneg _)
  have hself : Binary64.round (n : ℚ) = n := hrepresentable.round_eq (Nat.cast_nonneg _)
  have hfour : 2 ^ 2 ∣ n := hrepresentable.pow_dvd hlow
  have hsumOf : ∀ m, m / 10 ^ 7 = n / 10 ^ 7 →
      doubleSum m = Binary64.round ((product + m % 10 ^ 7 : ℕ) : ℚ) := by
    intro m hm
    rw [doubleSum, hm, hproduct, Nat.cast_add]
  rcases le_or_gt (product + n % 10 ^ 7) n with hbelow | habove
  · -- one stroop more still rounds down
    refine ⟨n + 1, by omega, by omega, ?_⟩
    rw [hsumOf (n + 1) (by omega)]
    have hmod : (n + 1) % 10 ^ 7 = n % 10 ^ 7 + 1 := by omega
    rw [hmod]
    apply le_antisymm
    · calc Binary64.round ((product + (n % 10 ^ 7 + 1) : ℕ) : ℚ)
          ≤ Binary64.round ((n + 1 : ℕ) : ℚ) :=
            Binary64.round_mono (by exact_mod_cast (by omega))
        _ = n := Binary64.round_succ hrepresentable hlow
    · rw [← hsum]
      exact Binary64.round_mono (by exact_mod_cast (by omega))
  · -- one stroop less still rounds down to it
    have hpart : n % 10 ^ 7 ≠ 0 := by
      intro hzero
      have hproductSelf : Binary64.round (product : ℚ) = product := by
        rw [← hproduct]
        exact (Binary64.representable_round (Nat.cast_nonneg _)).round_eq
          (Binary64.round_nonneg (Nat.cast_nonneg _))
      rw [hzero, Nat.add_zero] at hsum habove
      rw [hproductSelf] at hsum
      have heq : product = n := by exact_mod_cast hsum
      omega
    refine ⟨n - 1, by omega, by omega, ?_⟩
    rw [hsumOf (n - 1) (by omega)]
    have hmod : product + (n - 1) % 10 ^ 7 = product + n % 10 ^ 7 - 1 := by omega
    rw [hmod]
    apply le_antisymm
    · rw [← hsum]
      exact Binary64.round_mono (by exact_mod_cast (by omega))
    · rw [← hself]
      exact Binary64.round_mono (by exact_mod_cast (by omega))

/-- Sums of numbers of stroops below `2 ^ 53` are exact, and no other sums. -/
theorem eq_of_doubleSum_eq {n m : ℕ} (hn : n < 2 ^ 53) (h : doubleSum m = n) : m = n := by
  rcases lt_or_ge m (2 ^ 60) with hm | hm
  · rw [doubleSum_eq_round hm] at h
    rcases lt_or_ge m (2 ^ 53) with hsmall | hlarge
    · rw [(Binary64.representable_natCast hsmall).round_eq (Nat.cast_nonneg _)] at h
      exact_mod_cast h
    · have hlimit : ((2 ^ 53 : ℕ) : ℚ) ≤ Binary64.round (m : ℚ) :=
        Binary64.le_round (Nat.cast_nonneg _)
          (Binary64.representable_of_dvd (k := 1) (by decide) (by decide))
          (by exact_mod_cast hlarge)
      rw [h] at hlimit
      have hle : 2 ^ 53 ≤ n := by exact_mod_cast hlimit
      omega
  · have hlimit := le_doubleSum hm
    rw [h] at hlimit
    have hle : 2 ^ 54 ≤ n := by exact_mod_cast hlimit
    omega

/-- Between `2 ^ 53` and `2 ^ 54` the odd multiples of two are the sums of no others. -/
theorem eq_of_doubleSum_eq_odd_double {j m : ℕ} (hlow : 2 ^ 52 ≤ j) (hhigh : j < 2 ^ 53)
    (hodd : j % 2 = 1) (h : doubleSum m = (2 * j : ℕ)) : m = 2 * j := by
  rcases lt_or_ge m (2 ^ 60) with hm | hm
  · rw [doubleSum_eq_round hm] at h
    rcases lt_trichotomy m (2 * j) with hlt | heq | hgt
    · have hmono : Binary64.round (m : ℚ) ≤ Binary64.round ((2 * (j - 1) + 1 : ℕ) : ℚ) :=
        Binary64.round_mono (by exact_mod_cast (by omega))
      rw [h, Binary64.round_odd (by omega) (by omega)] at hmono
      have hle : 2 * j ≤ 2 * (j - 1 + (j - 1) % 2) := by exact_mod_cast hmono
      omega
    · exact heq
    · have hmono : Binary64.round ((2 * j + 1 : ℕ) : ℚ) ≤ Binary64.round (m : ℚ) :=
        Binary64.round_mono (by exact_mod_cast hgt)
      rw [h, Binary64.round_odd hlow hhigh] at hmono
      have hle : 2 * (j + j % 2) ≤ 2 * j := by exact_mod_cast hmono
      omega
  · have hlimit := le_doubleSum hm
    rw [h] at hlimit
    have hle : 2 ^ 54 ≤ 2 * j := by exact_mod_cast hlimit
    omega

/-- Which numbers of stroops are their own sum, and the sum of no other number. -/
theorem doubleSum_exact_iff {n : ℕ} (hwhole : n / 10 ^ 7 < 2 ^ 53) :
    (doubleSum n = n ∧ ∀ m, m / 10 ^ 7 < 2 ^ 53 → doubleSum m = n → m = n) ↔
      n < 2 ^ 53 ∨ n < 2 ^ 54 ∧ n % 4 = 2 := by
  constructor
  · rintro ⟨hexact, hunique⟩
    by_contra hnone
    have hlow : 2 ^ 53 ≤ n := by omega
    rcases lt_or_ge n (2 ^ 54) with hhigh | hhigh
    · have hround := doubleSum_eq_round (hhigh.trans (by decide))
      rcases Nat.even_or_odd' n with ⟨j, rfl | rfl⟩
      · -- the odd number behind a multiple of four goes to it
        have hnext : doubleSum (2 * j + 1) = (2 * j : ℕ) := by
          rw [doubleSum_eq_round (by omega), Binary64.round_odd (by omega) (by omega)]
          have hparity : j % 2 = 0 := by omega
          rw [hparity, Nat.add_zero]
        have heq := hunique (2 * j + 1) (by omega) hnext
        omega
      · rw [hround, Binary64.round_odd (by omega) (by omega)] at hexact
        have heq : 2 * (j + j % 2) = 2 * j + 1 := by exact_mod_cast hexact
        omega
    · obtain ⟨m, hne, hsame, hsum⟩ := exists_doubleSum_eq hhigh hexact
      exact hne (hunique m (hsame ▸ hwhole) hsum)
  · intro hgood
    rcases lt_or_ge n (2 ^ 53) with hsmall | hlow
    · refine ⟨?_, fun m _ h => eq_of_doubleSum_eq hsmall h⟩
      rw [doubleSum_eq_round (hsmall.trans (by decide))]
      exact (Binary64.representable_natCast hsmall).round_eq (Nat.cast_nonneg _)
    · obtain ⟨j, rfl⟩ : ∃ j, n = 2 * j := ⟨n / 2, by omega⟩
      refine ⟨?_, fun m _ h =>
        eq_of_doubleSum_eq_odd_double (by omega) (by omega) (by omega) h⟩
      rw [doubleSum_eq_round (by omega)]
      exact (Binary64.representable_of_dvd (k := 1) ⟨j, by omega⟩ (by omega)).round_eq
        (Nat.cast_nonneg _)

/-! ## Exactness -/

/-- A text that is no amount is not read; for an amount the result, where there is one, is the
number of stroops, and no other amount has it. -/
def ReadsExactly (text : String) : Prop :=
  ((∀ amount, ¬ IsAmount (trim text).toList amount) → xlmToStroops text = none) ∧
    ∀ amount stroops, IsAmount (trim text).toList amount → xlmToStroops text = some stroops →
      stroops = amount * 10 ^ 7 ∧
        ∀ other otherAmount, IsAmount (trim other).toList otherAmount →
          xlmToStroops other = some stroops → otherAmount = amount

/-- The range of amounts, in terms of the number of stroops. -/
theorem inRange_iff {amount : ℚ} {n : ℕ} (h : amount * 10 ^ 7 = n) :
    (2 ^ 53 ≤ amount ∨ amount * 10 ^ 7 < 2 ^ 53 ∨
        amount * 10 ^ 7 < 2 ^ 54 ∧ ∃ k : ℕ, amount * 10 ^ 7 = 4 * k + 2) ↔
      (n / 10 ^ 7 < 2 ^ 53 → n < 2 ^ 53 ∨ n < 2 ^ 54 ∧ n % 4 = 2) := by
  have hwhole : 2 ^ 53 ≤ amount ↔ 2 ^ 53 * 10 ^ 7 ≤ n := by
    rw [← mul_le_mul_iff_left₀ (by norm_num : (0 : ℚ) < 10 ^ 7), h]
    exact_mod_cast Iff.rfl
  have hfirst : amount * 10 ^ 7 < 2 ^ 53 ↔ n < 2 ^ 53 := by
    rw [h]
    exact_mod_cast Iff.rfl
  have hsecond : amount * 10 ^ 7 < 2 ^ 54 ↔ n < 2 ^ 54 := by
    rw [h]
    exact_mod_cast Iff.rfl
  have hremainder : (∃ k : ℕ, amount * 10 ^ 7 = 4 * k + 2) ↔ n % 4 = 2 := by
    rw [h]
    constructor
    · rintro ⟨k, hk⟩
      have hnat : n = 4 * k + 2 := by exact_mod_cast hk
      omega
    · intro hmod
      refine ⟨n / 4, ?_⟩
      exact_mod_cast (by omega : n = 4 * (n / 4) + 2)
  rw [hwhole, hfirst, hsecond, hremainder]
  omega

/-- An amount is read exactly if it is refused, if it has fewer than `2 ^ 53` stroops, or fewer
than `2 ^ 54` that leave a remainder of two by four. -/
theorem readsExactly_iff (text : String) :
    ReadsExactly text ↔ ∀ amount, IsAmount (trim text).toList amount →
      2 ^ 53 ≤ amount ∨ amount * 10 ^ 7 < 2 ^ 53 ∨
        amount * 10 ^ 7 < 2 ^ 54 ∧ ∃ k : ℕ, amount * 10 ^ 7 = 4 * k + 2 := by
  constructor
  · rintro ⟨-, hexact⟩ amount hamount
    obtain ⟨n, hn, hresult⟩ := xlmToStroops_of_isAmount hamount
    refine (inRange_iff hn).mpr fun hwhole => (doubleSum_exact_iff hwhole).mp ?_
    rw [if_pos hwhole] at hresult
    obtain ⟨hstroops, hunique⟩ := hexact amount (doubleSum n) hamount hresult
    rw [hn] at hstroops
    refine ⟨hstroops, fun m hm hsum => ?_⟩
    obtain ⟨other, otherAmount, hother, hm'⟩ := exists_isAmount m
    obtain ⟨m', hother', hresult'⟩ := xlmToStroops_of_isAmount hother
    have hsame : m' = m := by exact_mod_cast hother'.symm.trans hm'
    rw [hsame, if_pos hm, hsum, ← hstroops] at hresult'
    have heq := hunique other otherAmount hother hresult'
    rw [heq, hn] at hm'
    exact_mod_cast hm'.symm
  · intro hgood
    refine ⟨xlmToStroops_of_not_isAmount, fun amount stroops hamount hstroops => ?_⟩
    obtain ⟨n, hn, hresult⟩ := xlmToStroops_of_isAmount hamount
    rw [hstroops] at hresult
    split at hresult
    · rename_i hwhole
      obtain ⟨hexact, hunique⟩ :=
        (doubleSum_exact_iff hwhole).mpr ((inRange_iff hn).mp (hgood amount hamount) hwhole)
      obtain rfl := Option.some.inj hresult
      refine ⟨hexact.trans hn.symm, fun other otherAmount hother hsum => ?_⟩
      obtain ⟨m, hm, hresult'⟩ := xlmToStroops_of_isAmount hother
      rw [hsum] at hresult'
      split at hresult'
      · rename_i hm'
        have heq := hunique m hm' ((Option.some.inj hresult').symm.trans hexact)
        rw [heq, ← hn] at hm
        exact mul_right_cancel₀ (by norm_num) hm
      · cases hresult'
    · cases hresult

/-- An amount of `2 ^ 53 + 1` stroops is read as `2 ^ 53`. -/
theorem not_readsExactly_next : ¬ ReadsExactly "900719925.4740993" := by
  have htrim : trim "900719925.4740993" = "900719925.4740993" :=
    trim_of_forall_not_isWhiteSpace (by simp [isWhiteSpace])
  have hamount : IsAmount (trim "900719925.4740993").toList (900719925 + 4740993 / 10 ^ 7) := by
    rw [htrim]
    refine ⟨['9', '0', '0', '7', '1', '9', '9', '2', '5'], by simp, by simp,
      .inr ⟨['4', '7', '4', '0', '9', '9', '3'], by simp, by simp, by simp, by simp, ?_⟩⟩
    have hwhole : Json.ofDigits ['9', '0', '0', '7', '1', '9', '9', '2', '5'] = 900719925 := by
      decide +kernel
    have hfraction : Json.ofDigits ['4', '7', '4', '0', '9', '9', '3'] = 4740993 := by
      decide +kernel
    rw [hwhole, hfraction]
    rfl
  intro hexact
  obtain ⟨n, hn, hresult⟩ := xlmToStroops_of_isAmount hamount
  have hn' : n = 2 * 4503599627370496 + 1 := by
    have hvalue : (900719925 + 4740993 / 10 ^ 7 : ℚ) * 10 ^ 7 = 9007199254740993 := by norm_num
    rw [hvalue] at hn
    exact_mod_cast hn.symm
  subst hn'
  rw [if_pos (by decide), doubleSum_eq_round (by decide),
    Binary64.round_odd (by decide) (by decide)] at hresult
  obtain ⟨hstroops, -⟩ := hexact.2 _ _ hamount hresult
  rw [hn] at hstroops
  exact absurd (Nat.cast_injective hstroops) (by decide)

end Verixa.StellarAnchor
