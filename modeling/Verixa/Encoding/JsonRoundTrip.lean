import Verixa.Encoding.Json

/-!
# The JSON round trip

What `stringify` writes, `parse` reads back as the same record (`parse_stringify`): every string,
whichever code units it is made of, and every whole number.  Each part is read with any text behind
it, as far as that text cannot be taken for more of the part.
-/

namespace Encoding

namespace Json

/-! ## Strings -/

theorem hexValue?_digitChar : ∀ n < 16, hexValue? (Nat.digitChar n) = some n := by
  decide +kernel

/-- The four digits of an escape denote its code unit. -/
theorem readUnit_digits {n : ℕ} (h : n < 0x10000) :
    readUnit (Nat.digitChar (n / 4096)) (Nat.digitChar (n / 256 % 16))
      (Nat.digitChar (n / 16 % 16)) (Nat.digitChar (n % 16)) = some (UInt16.ofNat n) := by
  have hvalue : ((n / 4096 * 16 + n / 256 % 16) * 16 + n / 16 % 16) * 16 + n % 16 = n := by
    omega
  rw [readUnit, hexValue?_digitChar _ (by omega), hexValue?_digitChar _ (by omega),
    hexValue?_digitChar _ (by omega), hexValue?_digitChar _ (by omega)]
  exact congrArg (fun m => some (UInt16.ofNat m)) hvalue

/-- What is read of a string when some code units come first. -/
def behind (units : CodeUnits) (read : Option (CodeUnits × List Char)) :
    Option (CodeUnits × List Char) :=
  read.map fun read => (units ++ read.1, read.2)

theorem behind_append (a b : CodeUnits) (read : Option (CodeUnits × List Char)) :
    behind a (behind b read) = behind (a ++ b) read := by
  cases read with
  | none => rfl
  | some read => exact congrArg (fun units => some (units, read.2)) (List.append_assoc a b _).symm

example (rest : List Char) : readString ('"' :: rest) = some ([], rest) := by
  rw [readString.eq_def]
  rfl

/-- An escape of four digits is read as its code unit. -/
theorem readString_unicodeEscape {n : ℕ} (h : n < 0x10000) (rest : List Char) :
    readString (unicodeEscape n ++ rest) = behind [UInt16.ofNat n] (readString rest) := by
  rw [unicodeEscape, readString.eq_def]
  dsimp only [List.cons_append, List.nil_append]
  rw [if_neg (by decide), if_pos rfl, if_pos rfl, readUnit_digits h]
  cases readString rest with
  | none => rfl
  | some read => rfl

/-- An escaped character is read as what it stands for. -/
theorem readString_escaped {e : Char} {unit : UInt16} (he : escaped? e = some unit) (hu : e ≠ 'u')
    (rest : List Char) : readString ('\\' :: e :: rest) = behind [unit] (readString rest) := by
  rw [readString.eq_def]
  dsimp only
  rw [if_neg (by decide), if_pos rfl, if_neg hu, he]
  cases readString rest with
  | none => rfl
  | some read => rfl

/-- Any other character is read as it is. -/
theorem readString_plain {c : Char} (hquote : c ≠ '"') (hslash : c ≠ '\\') (hlarge : 0x20 ≤ c.toNat)
    (rest : List Char) : readString (c :: rest) = behind (unitsOfChar c) (readString rest) := by
  rw [readString.eq_def]
  dsimp only
  rw [if_neg hquote, if_neg hslash, if_neg (by omega)]
  cases readString rest with
  | none => rfl
  | some read => rfl

/-- A code point in quotes is read as its code units. -/
theorem readString_quoted (point : CodePoint) (rest : List Char) :
    readString (quoted point ++ rest) = behind point.units (readString rest) := by
  cases point with
  | surrogate unit =>
    rw [quoted, readString_unicodeEscape unit.toNat_lt, CodePoint.units, UInt16.ofNat_toNat]
  | scalar c =>
    have hunits : ∀ n < 0x80, c.toNat = n → (CodePoint.scalar c).units = [UInt16.ofNat n] := by
      intro n hn hc
      rw [CodePoint.units, unitsOfChar_of_ascii (by omega), hc]
    rw [quoted]
    split
    · rename_i h
      rw [hunits 8 (by decide) h]
      exact readString_escaped rfl (by decide) rest
    · split
      · rename_i h
        rw [hunits 9 (by decide) h]
        exact readString_escaped rfl (by decide) rest
      · split
        · rename_i h
          rw [hunits 10 (by decide) h]
          exact readString_escaped rfl (by decide) rest
        · split
          · rename_i h
            rw [hunits 12 (by decide) h]
            exact readString_escaped rfl (by decide) rest
          · split
            · rename_i h
              rw [hunits 13 (by decide) h]
              exact readString_escaped rfl (by decide) rest
            · split
              · rename_i h
                rw [hunits 34 (by decide) (by rw [h]; rfl)]
                exact readString_escaped rfl (by decide) rest
              · split
                · rename_i h
                  rw [hunits 92 (by decide) (by rw [h]; rfl)]
                  exact readString_escaped rfl (by decide) rest
                · split
                  · rename_i h
                    rw [hunits c.toNat (by omega) rfl]
                    exact readString_unicodeEscape (by omega) rest
                  · rename_i hquote hslash hlarge
                    exact readString_plain hquote hslash (by omega) rest

/-- A quoted string is read up to its closing quote. -/
theorem readString_quote (units : CodeUnits) (rest : List Char) :
    readString ((codePoints units).flatMap quoted ++ '"' :: rest) = some (units, rest) := by
  have hpoints : ∀ points : List CodePoint,
      readString (points.flatMap quoted ++ '"' :: rest) =
        some (points.flatMap CodePoint.units, rest) := by
    intro points
    induction points with
    | nil =>
      rw [List.flatMap_nil, List.nil_append, readString.eq_def]
      rfl
    | cons point points ih =>
      rw [List.flatMap_cons, List.append_assoc, readString_quoted, ih]
      rfl
  rw [hpoints, flatMap_units_codePoints]

/-! ## Numbers -/

/-- A text that goes on with no digit. -/
def NoDigit (text : List Char) : Prop := ∀ c ∈ text.head?, c.isDigit = false

/-- Digits are read up to a text that goes on with none. -/
theorem readDigits_append {digits rest : List Char} (hne : digits ≠ [])
    (hdigits : ∀ c ∈ digits, c.isDigit = true) (hrest : NoDigit rest) :
    readDigits (digits ++ rest) = some (digits, rest) := by
  have htake : rest.takeWhile Char.isDigit = [] := by
    cases rest with
    | nil => rfl
    | cons c rest => rw [List.takeWhile_cons, if_neg (by rw [hrest c rfl]; decide)]
  have hdrop : rest.dropWhile Char.isDigit = rest := by
    cases rest with
    | nil => rfl
    | cons c rest => rw [List.dropWhile_cons, if_neg (by rw [hrest c rfl]; decide)]
  rw [readDigits, List.takeWhile_append_of_pos hdigits, List.dropWhile_append_of_pos hdigits,
    htake, hdrop, List.append_nil]
  exact if_neg hne

/-- The digits of a positive number do not begin with a zero. -/
theorem exists_cons_toDigits {n : ℕ} (hn : 0 < n) :
    ∃ first others, Nat.toDigits 10 n = first :: others ∧ first ≠ '0' := by
  induction n using Nat.strong_induction_on with
  | _ n ih =>
    rcases lt_or_ge n 10 with hsmall | hlarge
    · refine ⟨Nat.digitChar n, [], Nat.toDigits_of_lt_base hsmall, ?_⟩
      intro hzero
      have hvalue := Nat.toNat_digitChar_of_lt_ten hsmall
      rw [hzero] at hvalue
      change 48 = 48 + n at hvalue
      omega
    · obtain ⟨first, others, hdigits, hfirst⟩ := ih (n / 10) (by omega) (by omega)
      refine ⟨first, others ++ [Nat.digitChar (n % 10)], ?_, hfirst⟩
      rw [Nat.toDigits_of_base_le (by decide) hlarge, hdigits, List.cons_append]

/-- The digits of a number without leading zeros are read as its integer part. -/
theorem readInteger_append {first : Char} {others rest : List Char} (hfirst : first ≠ '0')
    (hdigits : ∀ c ∈ first :: others, c.isDigit = true) (hrest : NoDigit rest) :
    readInteger (first :: (others ++ rest)) = some (first :: others, rest) := by
  have hread : readInteger (first :: (others ++ rest)) = readDigits (first :: others ++ rest) := by
    rw [readInteger]
    · rfl
    · intro _ hcons
      exact hfirst (List.cons.inj hcons).1
  rw [hread, readDigits_append (List.cons_ne_nil _ _) hdigits hrest]

/-- A text behind a number: it begins with none of the characters that would belong to it. -/
structure EndsNumber (rest : List Char) : Prop where
  noDigit : NoDigit rest
  noPoint : ∀ others, rest ≠ '.' :: others
  noExponent : ∀ others, rest ≠ 'e' :: others ∧ rest ≠ 'E' :: others

/-- Without a point there is no fraction. -/
theorem readFraction_of_no_point {text : List Char} (h : ∀ others, text ≠ '.' :: others) :
    readFraction text = some ([], text) := by
  rw [readFraction]
  exact h

/-- Without its letter there is no exponent. -/
theorem readExponent_of_ends {text : List Char} (h : EndsNumber text) :
    readExponent text = some (0, text) := by
  rw [readExponent]
  · exact fun others => (h.noExponent others).1
  · exact fun others => (h.noExponent others).2

/-- The exponent that is written behind a mantissa. -/
theorem readExponent_append {n : ℕ} {rest : List Char} (h : NoDigit rest) :
    readExponent ('e' :: '+' :: (Nat.toDigits 10 n ++ rest)) = some ((n : ℤ), rest) := by
  rw [readExponent, readSignedDigits, readDigits_append Nat.toDigits_ne_nil
    (fun c hc => Nat.isDigit_of_mem_toDigits (by decide) (by decide) hc) h, Option.map_some,
    ofDigits, Nat.ofDigitChars_ten_toDigits]

/-- Digits end in as many zeros as trimming them takes away. -/
theorem exists_trailing_zeros (digits : List Char) :
    ∃ k, digits = digits.rdropWhile (· == '0') ++ List.replicate k '0' := by
  refine ⟨(digits.rtakeWhile (· == '0')).length, ?_⟩
  have hzeros : digits.rtakeWhile (· == '0') =
      List.replicate (digits.rtakeWhile (· == '0')).length '0' := by
    refine List.eq_replicate_of_mem fun c hc => ?_
    exact beq_iff_eq.mp (List.mem_rtakeWhile_imp (p := (· == '0')) hc)
  rw [← hzeros]
  exact List.rdropWhile_append_rtakeWhile.symm

/-- The digits of a positive number: those up to the last that is not zero, and zeros. -/
theorem exists_significant {n : ℕ} (hn : 0 < n) :
    ∃ first others k, (Nat.toDigits 10 n).rdropWhile (· == '0') = first :: others ∧
      Nat.toDigits 10 n = first :: others ++ List.replicate k '0' ∧ first ≠ '0' := by
  obtain ⟨first, tail, hdigits, hfirst⟩ := exists_cons_toDigits hn
  obtain ⟨k, hzeros⟩ := exists_trailing_zeros (Nat.toDigits 10 n)
  cases hsignificant : (Nat.toDigits 10 n).rdropWhile (· == '0') with
  | nil =>
    have hall := List.rdropWhile_eq_nil_iff.mp hsignificant first (by
      rw [hdigits]
      exact List.mem_cons_self)
    exact absurd (beq_iff_eq.mp hall) hfirst
  | cons head others =>
    rw [hsignificant] at hzeros
    have hhead : head = first := by
      rw [hdigits, List.cons_append] at hzeros
      exact (List.cons.inj hzeros).1.symm
    exact ⟨head, others, k, rfl, hzeros, hhead ▸ hfirst⟩

/-- A number that is written with its digits alone. -/
theorem readMagnitude_digits {digits rest : List Char}
    (hread : readInteger (digits ++ rest) = some (digits, rest)) (hrest : EndsNumber rest) :
    readMagnitude (digits ++ rest) = some ((ofDigits digits : ℚ), rest) := by
  have hfraction := readFraction_of_no_point hrest.noPoint
  have hexponent := readExponent_of_ends hrest
  have hvalue : (ofDigits (digits ++ []) : ℚ) * 10 ^ ((0 : ℤ) - ([] : List Char).length) =
      ofDigits digits := by
    rw [List.append_nil, List.length_nil, Nat.cast_zero, sub_zero, zpow_zero, mul_one]
  simp only [readMagnitude, hread, hfraction, hexponent, Option.bind_eq_bind, Option.bind_some,
    hvalue, Option.pure_def]

/-- A number that is written with a mantissa and an exponent. -/
theorem readMagnitude_scientific {first : Char} {others rest : List Char} {exponent : ℕ}
    (hfirst : first ≠ '0') (hdigits : ∀ c ∈ first :: others, c.isDigit = true)
    (hrest : EndsNumber rest) :
    readMagnitude (first :: ((if others = [] then [] else '.' :: others) ++
        'e' :: '+' :: (Nat.toDigits 10 exponent ++ rest))) =
      some ((ofDigits (first :: others) : ℚ) * 10 ^ ((exponent : ℤ) - others.length), rest) := by
  have hexponent := readExponent_append (n := exponent) hrest.noDigit
  have hletter : ∀ text, NoDigit ('e' :: text) := by
    intro text c hc
    obtain rfl : 'e' = c := Option.some.inj hc
    rfl
  have hone : ∀ c ∈ [first], c.isDigit = true := by
    intro c hc
    exact hdigits c (by rw [List.mem_singleton.mp hc]; exact List.mem_cons_self)
  cases others with
  | nil =>
    have hinteger := @readInteger_append first [] _ hfirst hone
      (hletter ('+' :: (Nat.toDigits 10 exponent ++ rest)))
    have hfraction : readFraction ('e' :: '+' :: (Nat.toDigits 10 exponent ++ rest)) =
        some ([], 'e' :: '+' :: (Nat.toDigits 10 exponent ++ rest)) :=
      readFraction_of_no_point (by simp)
    rw [List.nil_append] at hinteger
    rw [if_pos rfl, List.nil_append]
    simp only [readMagnitude, hinteger, hfraction, hexponent, Option.bind_eq_bind,
      Option.bind_some, Option.pure_def, List.append_nil]
  | cons second others =>
    have hpoint : ∀ text, NoDigit ('.' :: text) := by
      intro text c hc
      obtain rfl : '.' = c := Option.some.inj hc
      rfl
    have hinteger := @readInteger_append first [] _ hfirst hone
      (hpoint (second :: others ++ 'e' :: '+' :: (Nat.toDigits 10 exponent ++ rest)))
    have hfraction : readFraction
        ('.' :: (second :: others ++ 'e' :: '+' :: (Nat.toDigits 10 exponent ++ rest))) =
          some (second :: others, 'e' :: '+' :: (Nat.toDigits 10 exponent ++ rest)) := by
      rw [readFraction]
      exact readDigits_append (List.cons_ne_nil _ _)
        (fun c hc => hdigits c (List.mem_cons_of_mem _ hc)) (hletter _)
    rw [List.nil_append] at hinteger
    rw [if_neg (List.cons_ne_nil _ _), List.cons_append]
    simp only [readMagnitude, hinteger, hfraction, hexponent, Option.bind_eq_bind,
      Option.bind_some, Option.pure_def, List.singleton_append]

/-- A natural number is read as itself. -/
theorem readMagnitude_naturalText (n : ℕ) {rest : List Char} (hrest : EndsNumber rest) :
    readMagnitude (naturalText n ++ rest) = some ((n : ℚ), rest) := by
  have hdigit : ∀ c ∈ Nat.toDigits 10 n, c.isDigit = true :=
    fun c hc => Nat.isDigit_of_mem_toDigits (by decide) (by decide) hc
  rw [naturalText]
  split
  · have hread : readInteger (Nat.toDigits 10 n ++ rest) = some (Nat.toDigits 10 n, rest) := by
      rcases Nat.eq_zero_or_pos n with rfl | hpos
      · rfl
      · obtain ⟨first, others, hdigits, hfirst⟩ := exists_cons_toDigits hpos
        rw [hdigits] at hdigit ⊢
        exact readInteger_append hfirst hdigit hrest.noDigit
    rw [readMagnitude_digits hread hrest, ofDigits, Nat.ofDigitChars_ten_toDigits]
  · rename_i hlarge
    obtain ⟨first, others, k, hsignificant, hdigits, hfirst⟩ :=
      exists_significant (show 0 < n by omega)
    have hlength : (Nat.toDigits 10 n).length - 1 = others.length + k := by
      rw [hdigits, List.length_append, List.length_cons, List.length_replicate]
      omega
    have hvalue : n = ofDigits (first :: others) * 10 ^ k := by
      have hn : ofDigits (Nat.toDigits 10 n) = n := Nat.ofDigitChars_ten_toDigits
      rw [hdigits, ofDigits, Nat.ofDigitChars_append, Nat.ofDigitChars_replicate_zero] at hn
      rw [← hn, mul_comm]
      rfl
    have hsignificantDigits : ∀ c ∈ first :: others, c.isDigit = true := by
      intro c hc
      refine hdigit c ?_
      rw [hdigits]
      exact List.mem_append_left _ hc
    have hread := @readMagnitude_scientific first others rest (others.length + k) hfirst
      hsignificantDigits hrest
    have hscaled : (ofDigits (first :: others) : ℚ) *
        10 ^ (((others.length + k : ℕ) : ℤ) - others.length) = n := by
      rw [Nat.cast_add, add_sub_cancel_left, zpow_natCast]
      exact_mod_cast hvalue.symm
    rw [hscaled] at hread
    dsimp only
    rw [hsignificant, hlength]
    cases others with
    | nil => exact hread
    | cons second others =>
      rw [List.cons_append, List.cons_append, List.append_assoc]
      exact hread

/-- A natural number begins with a digit. -/
theorem exists_cons_naturalText (n : ℕ) :
    ∃ first others, naturalText n = first :: others ∧ first.isDigit = true := by
  have hdigits : ∃ first others, Nat.toDigits 10 n = first :: others := by
    exact List.exists_cons_of_ne_nil Nat.toDigits_ne_nil
  obtain ⟨first, others, hcons⟩ := hdigits
  have hfirst : first.isDigit = true := by
    refine Nat.isDigit_of_mem_toDigits (b := 10) (n := n) (by decide) (by decide) ?_
    rw [hcons]
    exact List.mem_cons_self
  rw [naturalText]
  split
  · exact ⟨first, others, hcons, hfirst⟩
  · rename_i hlarge
    obtain ⟨head, tail, k, hsignificant, htext, _⟩ := exists_significant (show 0 < n by omega)
    have hhead : head.isDigit = true := by
      refine Nat.isDigit_of_mem_toDigits (b := 10) (n := n) (by decide) (by decide) ?_
      rw [htext]
      exact List.mem_cons_self
    dsimp only
    rw [hsignificant]
    cases tail with
    | nil => exact ⟨head, _, rfl, hhead⟩
    | cons second tail => exact ⟨head, _, rfl, hhead⟩

/-- A whole number is read as itself. -/
theorem readNumber_wholeText (n : ℤ) {rest : List Char} (hrest : EndsNumber rest) :
    readNumber (wholeText n ++ rest) = some ((n : ℚ), rest) := by
  rw [wholeText]
  split
  · rename_i hneg
    have hvalue : -((n.natAbs : ℕ) : ℚ) = (n : ℚ) := by
      have habs : -((n.natAbs : ℕ) : ℤ) = n := by omega
      rw [← Int.cast_natCast, ← Int.cast_neg, habs]
    rw [List.cons_append, readNumber, readMagnitude_naturalText _ hrest, Option.map_some, hvalue]
  · rename_i hnonneg
    obtain ⟨first, others, hcons, hfirst⟩ := exists_cons_naturalText n.natAbs
    have hread : readNumber (naturalText n.natAbs ++ rest) =
        readMagnitude (naturalText n.natAbs ++ rest) := by
      rw [hcons, List.cons_append, readNumber]
      intro _ hminus
      rw [(List.cons.inj hminus).1] at hfirst
      exact absurd hfirst (by decide)
    have hvalue : ((n.natAbs : ℕ) : ℚ) = (n : ℚ) := by
      have habs : ((n.natAbs : ℕ) : ℤ) = n := by omega
      rw [← Int.cast_natCast, habs]
    rw [hread, readMagnitude_naturalText _ hrest, hvalue]

/-! ## Records -/

/-- No white space is skipped where none stands. -/
theorem skipWhiteSpace_cons {c : Char}
    (h : (c == ' ' || c == '\t' || c == '\n' || c == '\r') = false) (rest : List Char) :
    skipWhiteSpace (c :: rest) = c :: rest := by
  rw [skipWhiteSpace, List.dropWhile_cons, if_neg]
  rw [h]
  exact Bool.false_ne_true

/-- The character that is expected stands next. -/
theorem expect_self {c : Char} (h : (c == ' ' || c == '\t' || c == '\n' || c == '\r') = false)
    (rest : List Char) : expect c (c :: rest) = some rest := by
  rw [expect, skipWhiteSpace_cons h]
  exact if_pos rfl

/-- Another character stands next. -/
theorem expect_other {c d : Char}
    (h : (d == ' ' || d == '\t' || d == '\n' || d == '\r') = false) (hne : d ≠ c)
    (rest : List Char) : expect c (d :: rest) = none := by
  rw [expect, skipWhiteSpace_cons h]
  exact if_neg hne

/-- The comma and the brace behind a member belong to no number. -/
theorem endsNumber_cons {c : Char} (h : c = ',' ∨ c = '\x7d') (rest : List Char) :
    EndsNumber (c :: rest) := by
  have hdigit : c.isDigit = false := by
    rcases h with rfl | rfl
    · rfl
    · rfl
  have hother : c ≠ '.' ∧ c ≠ 'e' ∧ c ≠ 'E' := by
    rcases h with rfl | rfl
    · decide
    · decide
  refine ⟨?_, ?_, ?_⟩
  · intro d hd
    obtain rfl : c = d := Option.some.inj hd
    exact hdigit
  · intro others hcons
    exact hother.1 (List.cons.inj hcons).1
  · intro others
    exact ⟨fun hcons => hother.2.1 (List.cons.inj hcons).1,
      fun hcons => hother.2.2 (List.cons.inj hcons).1⟩

/-- A whole number begins with a minus sign or a digit. -/
theorem exists_cons_wholeText (n : ℤ) :
    ∃ first others, wholeText n = first :: others ∧ (first = '-' ∨ first.isDigit = true) := by
  obtain ⟨first, others, hcons, hfirst⟩ := exists_cons_naturalText n.natAbs
  rw [wholeText]
  split
  · exact ⟨'-', _, rfl, Or.inl rfl⟩
  · exact ⟨first, others, hcons, Or.inr hfirst⟩

/-- No other kind of value begins with a minus sign or a digit. -/
theorem starts_no_other {c : Char} (h : c = '-' ∨ c.isDigit = true) :
    (c == ' ' || c == '\t' || c == '\n' || c == '\r') = false ∧ c ≠ '"' ∧ c ≠ '\x7b' ∧ c ≠ '[' ∧
      c ≠ 't' ∧ c ≠ 'f' ∧ c ≠ 'n' := by
  rcases h with rfl | hdigit
  · decide
  · have hnot : ∀ d : Char, d.isDigit = false → c ≠ d := by
      intro d hd hcd
      rw [hcd, hd] at hdigit
      exact Bool.false_ne_true hdigit
    have hwhite : (c == ' ' || c == '\t' || c == '\n' || c == '\r') = false := by
      simp only [Bool.or_eq_false_iff, beq_eq_false_iff_ne]
      exact ⟨⟨⟨hnot _ rfl, hnot _ rfl⟩, hnot _ rfl⟩, hnot _ rfl⟩
    exact ⟨hwhite, hnot _ rfl, hnot _ rfl, hnot _ rfl, hnot _ rfl, hnot _ rfl, hnot _ rfl⟩

-- an empty array in another one, and a member that is missing
example : readItems 2 ['[', ']', ']'] = some ([.array []], []) := by
  rw [readItems, readValue]
  rfl

example (fuel : ℕ) : readMembers (fuel + 1) [] = none := by
  rw [readMembers]
  rfl

/-- A field is read as what it holds. -/
theorem readValue_field (fuel : ℕ) (field : Field) {rest : List Char} (hrest : EndsNumber rest) :
    readValue (fuel + 1) (field.text ++ rest) = some (field.value, rest) := by
  cases field with
  | string units =>
    rw [Field.text, quote, List.cons_append, List.append_assoc, List.singleton_append, readValue,
      skipWhiteSpace_cons rfl]
    dsimp only
    rw [if_pos rfl, readString_quote]
    rfl
  | whole n =>
    obtain ⟨first, others, hcons, hfirst⟩ := exists_cons_wholeText n
    obtain ⟨hwhite, hquote, hbrace, hbracket, ht, hf, hn⟩ := starts_no_other hfirst
    have hread := readNumber_wholeText n hrest
    rw [hcons, List.cons_append] at hread
    rw [Field.text, hcons, List.cons_append, readValue, skipWhiteSpace_cons hwhite]
    dsimp only
    rw [if_neg hquote, if_neg hbrace, if_neg hbracket, if_neg ht, if_neg hf, if_neg hn, hread]
    rfl

/-- A member with what stands behind it. -/
theorem memberText_append (member : String × Field) (rest : List Char) :
    memberText member ++ rest =
      '"' :: ((codePoints (unitsOf member.1)).flatMap quoted ++
        '"' :: ':' :: (member.2.text ++ rest)) := by
  simp only [memberText, quote, List.cons_append, List.append_assoc, List.nil_append]

/-- The last member of an object. -/
theorem readMembers_last (fuel : ℕ) (member : String × Field) (rest : List Char) :
    readMembers (fuel + 2) (memberText member ++ '\x7d' :: rest) =
      some ([memberValue member], rest) := by
  have hvalue := readValue_field fuel member.2 (endsNumber_cons (Or.inr rfl) rest)
  rw [memberText_append, readMembers]
  simp only [expect_self (c := '"') rfl, readString_quote, expect_self (c := ':') rfl, hvalue,
    expect_self (c := '\x7d') rfl, Option.bind_eq_bind, Option.bind_some, Option.pure_def,
    memberValue]

/-- A member before others. -/
theorem readMembers_cons (fuel : ℕ) (member : String × Field) (rest : List Char) :
    readMembers (fuel + 2) (memberText member ++ ',' :: rest) =
      (readMembers (fuel + 1) rest).map fun read => (memberValue member :: read.1, read.2) := by
  have hvalue := readValue_field fuel member.2 (endsNumber_cons (Or.inl rfl) rest)
  rw [memberText_append, readMembers]
  simp only [expect_self (c := '"') rfl, readString_quote, expect_self (c := ':') rfl, hvalue,
    expect_other (c := '\x7d') (d := ',') rfl (by decide), expect_self (c := ',') rfl,
    Option.bind_eq_bind, Option.bind_some, Option.pure_def, memberValue]
  cases readMembers (fuel + 1) rest with
  | none => rfl
  | some read => rfl

/-- The members of a record, with fuel for each of them. -/
theorem readMembers_record (member : String × Field) (record : List (String × Field))
    (rest : List Char) {fuel : ℕ} (hfuel : record.length + 2 ≤ fuel) :
    readMembers fuel ([','].intercalate ((member :: record).map memberText) ++ '\x7d' :: rest) =
      some ((member :: record).map memberValue, rest) := by
  induction record generalizing member fuel with
  | nil =>
    obtain ⟨k, rfl⟩ := Nat.exists_eq_add_of_le' hfuel
    rw [List.map_singleton, List.intercalate_singleton, List.length_nil, Nat.zero_add,
      readMembers_last]
    rfl
  | cons next record ih =>
    obtain ⟨k, rfl⟩ := Nat.exists_eq_add_of_le' hfuel
    have hsplit : [','].intercalate ((member :: next :: record).map memberText) =
        memberText member ++ ',' :: [','].intercalate ((next :: record).map memberText) := by
      simp only [List.map_cons, List.intercalate_cons_cons, List.append_assoc,
        List.singleton_append]
    have hfuel' : k + ((next :: record).length + 2) = (k + record.length + 1) + 2 := by
      rw [List.length_cons]
      omega
    rw [hsplit, List.append_assoc, List.cons_append, hfuel', readMembers_cons,
      ih next (by omega)]
    rfl

/-- A member takes up more than its comma. -/
theorem length_record_le (member : String × Field) (record : List (String × Field)) :
    record.length + 3 ≤ ([','].intercalate ((member :: record).map memberText)).length := by
  induction record generalizing member with
  | nil =>
    simp only [List.map_singleton, List.intercalate_singleton, memberText, quote,
      List.length_append, List.length_cons, List.length_nil]
    omega
  | cons next record ih =>
    have hnext := ih next
    simp only [List.map_cons, List.intercalate_cons_cons, List.length_append,
      List.length_cons, List.length_nil] at hnext ⊢
    omega

/-- The members of a record begin with a quote. -/
theorem exists_quote_members (member : String × Field) (record : List (String × Field))
    (rest : List Char) :
    ∃ others, [','].intercalate ((member :: record).map memberText) ++ rest = '"' :: others := by
  cases record with
  | nil =>
    rw [List.map_singleton, List.intercalate_singleton]
    exact ⟨_, memberText_append member rest⟩
  | cons next record =>
    rw [List.map_cons, List.map_cons, List.intercalate_cons_cons, List.append_assoc,
      List.append_assoc]
    exact ⟨_, memberText_append member _⟩

/-- What `stringify` writes is read back. -/
theorem parse_stringify (record : List (String × Field)) :
    parse (stringify record) = some (.object (record.map memberValue)) := by
  have hread : readValue ((stringify record).length + 1) (stringify record) =
      some (.object (record.map memberValue), []) := by
    rw [readValue, stringify, skipWhiteSpace_cons rfl]
    dsimp only
    rw [if_neg (by decide), if_pos rfl]
    cases record with
    | nil => rfl
    | cons member record =>
      have hlength := length_record_le member record
      have hfuel : record.length + 2 ≤ ('\x7b' :: ([','].intercalate
          ((member :: record).map memberText) ++ ['\x7d'])).length := by
        rw [List.length_cons, List.length_append]
        omega
      have hmembers := readMembers_record member record [] hfuel
      obtain ⟨others, hothers⟩ := exists_quote_members member record ['\x7d']
      have hbrace : expect '\x7d' ([','].intercalate ((member :: record).map memberText) ++
          ['\x7d']) = none := by
        rw [hothers]
        exact expect_other rfl (by decide) others
      rw [hbrace]
      dsimp only
      rw [hmembers]
      rfl
  rw [parse, hread]
  rfl

end Json

end Encoding
