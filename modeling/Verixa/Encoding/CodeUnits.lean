import Verixa.Encoding.Utf8

/-!
# Strings as code units

A string is any sequence of UTF-16 code units, so a surrogate may stand without its partner.  The
code points of a string give its code units back (`flatMap_units_codePoints`).  Where a string is
written as UTF-8, a lone surrogate becomes U+FFFD, so different strings may have the same bytes;
an ASCII string shares its bytes with no other (`eq_of_bufferFrom_eq`).  An `UpperCasing` is a
function on strings known to replace small ASCII letters.
-/

namespace Encoding

/-- A string: its UTF-16 code units. -/
abbrev CodeUnits := List UInt16

/-- What an iteration over a string meets: a character, or a surrogate without its partner. -/
inductive CodePoint where
  | scalar (c : Char)
  | surrogate (unit : UInt16)
  deriving DecidableEq

def isHighSurrogate (unit : UInt16) : Bool := decide (0xd800 ≤ unit.toNat ∧ unit.toNat ≤ 0xdbff)

def isLowSurrogate (unit : UInt16) : Bool := decide (0xdc00 ≤ unit.toNat ∧ unit.toNat ≤ 0xdfff)

/-- The character of a surrogate pair. -/
def surrogatePair (high low : UInt16) : Char :=
  Char.ofNat (0x10000 + (high.toNat - 0xd800) * 0x400 + (low.toNat - 0xdc00))

/-- A code unit on its own. -/
def CodePoint.ofUnit (unit : UInt16) : CodePoint :=
  if isHighSurrogate unit || isLowSurrogate unit then .surrogate unit
  else .scalar (Char.ofNat unit.toNat)

/-- The code points of a string. -/
def codePoints : CodeUnits → List CodePoint
  | [] => []
  | [unit] => [.ofUnit unit]
  | unit :: next :: units =>
    if isHighSurrogate unit && isLowSurrogate next then
      .scalar (surrogatePair unit next) :: codePoints units
    else .ofUnit unit :: codePoints (next :: units)

/-- The code units of a character. -/
def unitsOfChar (c : Char) : CodeUnits := (utf16OfChar c).map UInt16.ofNat

/-- The code units of a code point. -/
def CodePoint.units : CodePoint → CodeUnits
  | .scalar c => unitsOfChar c
  | .surrogate unit => [unit]

/-- The string of a text. -/
def unitsOf (text : String) : CodeUnits := text.toList.flatMap unitsOfChar

/-- The code units of a text are those it is measured by. -/
theorem map_toNat_unitsOf (text : String) :
    (unitsOf text).map UInt16.toNat = utf16CodeUnits text := by
  rw [unitsOf, utf16CodeUnits, List.map_flatMap]
  congr 1
  funext c
  have hsmall : ∀ n ∈ utf16OfChar c, (UInt16.ofNat n).toNat = n := by
    intro n hn
    have hlt : n < 2 ^ 16 := by
      have hc := toNat_lt c
      unfold utf16OfChar at hn
      split at hn
      · rw [List.mem_singleton.mp hn]
        omega
      · rcases List.mem_cons.mp hn with rfl | hlow
        · omega
        · rw [List.mem_singleton.mp hlow]
          omega
    exact Nat.mod_eq_of_lt hlt
  rw [unitsOfChar, List.map_map]
  exact (List.map_congr_left hsmall).trans (List.map_id _)

/-- The string of a text determines the text. -/
theorem unitsOf_injective : Function.Injective unitsOf := by
  intro a b h
  apply utf16CodeUnits_injective
  rw [← map_toNat_unitsOf, ← map_toNat_unitsOf, h]

/-! ## Code points and code units -/

theorem toNat_ofNat_of_valid {n : ℕ} (h : n < 0xd800 ∨ 0xdfff < n ∧ n < 0x110000) :
    (Char.ofNat n).toNat = n := by
  have hvalid : n.isValidChar := h
  rw [Char.ofNat, dif_pos hvalid]
  rfl

/-- A code unit that is no surrogate is a character. -/
theorem units_ofUnit (unit : UInt16) : (CodePoint.ofUnit unit).units = [unit] := by
  rw [CodePoint.ofUnit]
  split
  · rfl
  · rename_i hscalar
    have hsize := unit.toNat_lt
    have hvalid : unit.toNat < 0xd800 ∨ 0xdfff < unit.toNat ∧ unit.toNat < 0x110000 := by
      simp only [isHighSurrogate, isLowSurrogate, Bool.or_eq_true, decide_eq_true_eq] at hscalar
      omega
    rw [CodePoint.units, unitsOfChar, utf16OfChar, toNat_ofNat_of_valid hvalid,
      if_pos (by omega), List.map_singleton, UInt16.ofNat_toNat]

/-- A pair of surrogates is the character that has it for its code units. -/
theorem unitsOfChar_surrogatePair {high low : UInt16} (hhigh : isHighSurrogate high = true)
    (hlow : isLowSurrogate low = true) : unitsOfChar (surrogatePair high low) = [high, low] := by
  rw [isHighSurrogate, decide_eq_true_eq] at hhigh
  rw [isLowSurrogate, decide_eq_true_eq] at hlow
  have hvalue : (surrogatePair high low).toNat =
      0x10000 + (high.toNat - 0xd800) * 0x400 + (low.toNat - 0xdc00) :=
    toNat_ofNat_of_valid (by omega)
  have hfirst : 0xd800 + ((surrogatePair high low).toNat - 0x10000) / 0x400 = high.toNat := by
    omega
  have hsecond : 0xdc00 + ((surrogatePair high low).toNat - 0x10000) % 0x400 = low.toNat := by
    omega
  rw [unitsOfChar, utf16OfChar, if_neg (by omega), hfirst, hsecond, List.map_cons,
    List.map_singleton, UInt16.ofNat_toNat, UInt16.ofNat_toNat]

/-- The code points of a string, written out, are the string. -/
theorem flatMap_units_codePoints (units : CodeUnits) :
    (codePoints units).flatMap CodePoint.units = units := by
  fun_induction codePoints units with
  | case1 => rfl
  | case2 unit => rw [List.flatMap_cons, units_ofUnit, List.flatMap_nil, List.append_nil]
  | case3 unit next units hpair ih =>
    rw [Bool.and_eq_true] at hpair
    rw [List.flatMap_cons, ih, CodePoint.units, unitsOfChar_surrogatePair hpair.1 hpair.2]
    rfl
  | case4 unit next units hpair ih =>
    rw [List.flatMap_cons, ih, units_ofUnit]
    rfl

/-- The code points of a string determine it. -/
theorem codePoints_injective : Function.Injective codePoints := by
  intro a b h
  rw [← flatMap_units_codePoints a, h, flatMap_units_codePoints]

/-! ## Strings as UTF-8 -/

/-- The character that stands for a code point where only characters can. -/
def CodePoint.toChar : CodePoint → Char
  | .scalar c => c
  | .surrogate _ => Utf8.replacement

/-- `units.toWellFormed()`. -/
def toWellFormed (units : CodeUnits) : String :=
  String.ofList ((codePoints units).map CodePoint.toChar)

/-- `Buffer.from(units, "utf8")`. -/
def bufferFrom (units : CodeUnits) : Bytes := utf8 (toWellFormed units)

/-- A string of ASCII code units. -/
def IsAscii (units : CodeUnits) : Prop := ∀ unit ∈ units, unit.toNat < 0x80

/-- An ASCII code unit is a character of its own. -/
theorem ofUnit_of_ascii {unit : UInt16} (h : unit.toNat < 0x80) :
    CodePoint.ofUnit unit = .scalar (Char.ofNat unit.toNat) := by
  rw [CodePoint.ofUnit, if_neg]
  simp only [isHighSurrogate, isLowSurrogate, Bool.or_eq_true, decide_eq_true_eq]
  omega

/-- The code points of an ASCII string. -/
theorem codePoints_of_ascii {units : CodeUnits} (h : IsAscii units) :
    codePoints units = units.map CodePoint.ofUnit := by
  fun_induction codePoints units with
  | case1 => rfl
  | case2 unit => rfl
  | case3 unit next units hpair ih =>
    have hunit : unit.toNat < 0x80 := h unit List.mem_cons_self
    simp only [isHighSurrogate, Bool.and_eq_true, decide_eq_true_eq] at hpair
    omega
  | case4 unit next units hpair ih =>
    rw [ih fun other hother => h other (List.mem_cons_of_mem _ hother)]
    rfl

/-- No other string is written with the bytes of an ASCII string. -/
theorem eq_of_bufferFrom_eq {a b : CodeUnits} (hb : IsAscii b) (h : bufferFrom a = bufferFrom b) :
    a = b := by
  have hchars : (codePoints a).map CodePoint.toChar = (codePoints b).map CodePoint.toChar := by
    have htexts := congrArg Utf8.decode h
    simpa only [bufferFrom, decode_utf8, toWellFormed, String.toList_ofList] using htexts
  have hascii : ∀ point ∈ codePoints b, ∃ c : Char, point = .scalar c ∧ c.toNat < 0x80 := by
    intro point hpoint
    rw [codePoints_of_ascii hb, List.mem_map] at hpoint
    obtain ⟨unit, hunit, rfl⟩ := hpoint
    refine ⟨Char.ofNat unit.toNat, ofUnit_of_ascii (hb unit hunit), ?_⟩
    have hsmall := hb unit hunit
    rw [toNat_ofNat_of_valid (by omega)]
    exact hsmall
  -- a lone surrogate would have become U+FFFD, which is not ASCII
  have hpoints : ∀ p q : List CodePoint, p.map CodePoint.toChar = q.map CodePoint.toChar →
      (∀ point ∈ q, ∃ c : Char, point = .scalar c ∧ c.toNat < 0x80) → p = q := by
    intro p
    induction p with
    | nil =>
      intro q hmap _
      exact (List.map_eq_nil_iff.mp hmap.symm).symm
    | cons point p ih =>
      intro q hmap hq
      cases q with
      | nil => exact absurd hmap (List.cons_ne_nil _ _)
      | cons other q =>
        obtain ⟨hhead, htail⟩ := List.cons.inj hmap
        obtain ⟨c, rfl, hc⟩ := hq other List.mem_cons_self
        have hrest := ih q htail fun point hpoint => hq point (List.mem_cons_of_mem _ hpoint)
        cases point with
        | scalar d =>
          obtain rfl : d = c := hhead
          rw [hrest]
        | surrogate unit =>
          have hreplacement : Utf8.replacement = c := hhead
          rw [← hreplacement] at hc
          exact absurd hc (by decide)
  exact codePoints_injective (hpoints _ _ hchars hascii)

/-- An ASCII string has one byte a code unit. -/
theorem length_bufferFrom_of_ascii {units : CodeUnits} (h : IsAscii units) :
    (bufferFrom units).length = units.length := by
  have hone : ∀ unit ∈ units,
      (String.utf8EncodeChar (CodePoint.toChar (CodePoint.ofUnit unit))).length = 1 := by
    intro unit hunit
    have hsmall := h unit hunit
    have hvalue : (Char.ofNat unit.toNat).val.toNat = unit.toNat :=
      toNat_ofNat_of_valid (by omega)
    have hsize : (Char.ofNat unit.toNat).val ≤ 0x7f := by
      rw [UInt32.le_iff_toNat_le, hvalue]
      exact Nat.le_of_lt_succ hsmall
    rw [ofUnit_of_ascii hsmall, String.length_utf8EncodeChar]
    exact if_pos hsize
  rw [bufferFrom, utf8_eq, toWellFormed, String.toList_ofList, codePoints_of_ascii h,
    List.length_flatMap, List.map_map, List.map_map]
  change (units.map fun unit =>
    (String.utf8EncodeChar (CodePoint.toChar (CodePoint.ofUnit unit))).length).sum = _
  rw [List.map_congr_left hone, List.map_const', List.sum_replicate, smul_eq_mul, mul_one]

/-! ## The string of a text -/

/-- ASCII characters are written as they are. -/
theorem unitsOfChar_of_ascii {c : Char} (h : c.toNat < 0x80) :
    unitsOfChar c = [UInt16.ofNat c.toNat] := by
  rw [unitsOfChar, utf16OfChar, if_pos (by omega), List.map_singleton]

/-- A text of ASCII letters has one code unit a letter. -/
theorem unitsOf_of_ascii {text : String} (h : ∀ c ∈ text.toList, c.toNat < 0x80) :
    unitsOf text = text.toList.map fun c => UInt16.ofNat c.toNat := by
  rw [unitsOf, List.flatMap_congr fun c hc => unitsOfChar_of_ascii (h c hc)]
  exact List.map_eq_flatMap.symm

theorem isAscii_unitsOf {text : String} (h : ∀ c ∈ text.toList, c.toNat < 0x80) :
    IsAscii (unitsOf text) := by
  intro unit hunit
  rw [unitsOf_of_ascii h, List.mem_map] at hunit
  obtain ⟨c, hc, rfl⟩ := hunit
  have hsmall := h c hc
  rw [UInt16.toNat_ofNat', Nat.mod_eq_of_lt (by omega)]
  exact hsmall

/-! ## Letter case -/

/-- The capital of an ASCII letter. -/
def upperUnit (unit : UInt16) : UInt16 :=
  if 97 ≤ unit.toNat ∧ unit.toNat ≤ 122 then unit - 32 else unit

/-- `units.toUpperCase()`: some function on strings which, on ASCII strings, replaces the small
letters. -/
structure UpperCasing where
  toUpperCase : CodeUnits → CodeUnits
  ascii : ∀ units : CodeUnits, IsAscii units → toUpperCase units = units.map upperUnit

/-- The function that replaces the small ASCII letters and nothing else. -/
def asciiUpperCasing : UpperCasing where
  toUpperCase units := units.map upperUnit
  ascii _ _ := rfl

/-- The strings differ in nothing but the case of ASCII letters. -/
def SameLetters (a b : CodeUnits) : Prop := a.map upperUnit = b.map upperUnit

instance (a b : CodeUnits) : Decidable (SameLetters a b) :=
  inferInstanceAs (Decidable (a.map upperUnit = b.map upperUnit))

end Encoding
