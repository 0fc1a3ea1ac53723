import Verixa.Encoding.Text

/-!
# Dates and their ISO texts

A `Date` is a valid JavaScript date: a time value in milliseconds since 1970-01-01T00:00:00.000Z
within the range ECMAScript allows.  An invalid date has no time value and is `none : Option Date`
wherever one can occur.

`toISOString` follows the ECMAScript definitions: the year is found from the day number with
`dayFromYear`, the month from the day within the year, and the text is
`YYYY-MM-DDTHH:mm:ss.sssZ`, with a sign and six year digits outside the years 0 to 9999.  The text
determines the date (`toISOString_injective`): the fields compose back to the time value, and the
text of the fields can be read off from left to right.
-/

namespace Verixa

open Encoding

/-- The largest time value of a valid date, 100 000 000 days. -/
def maxTime : ℤ := 8640000000000000

/-- A valid date. -/
structure Date where
  /-- Milliseconds since the epoch. -/
  time : ℤ
  /-- The time value is within the range of valid dates. -/
  inRange : -maxTime ≤ time ∧ time ≤ maxTime
  deriving DecidableEq

/-- `new Date(time)`, `none` when the result is an invalid date. -/
def Date.ofTime? (time : ℤ) : Option Date :=
  if h : -maxTime ≤ time ∧ time ≤ maxTime then some ⟨time, h⟩ else none

instance : Inhabited Date := ⟨⟨0, by decide⟩⟩

/-! ## Calendar fields -/

/-- The fields `toISOString` prints; `month` and `day` count from one. -/
structure IsoFields where
  year : ℤ
  month : ℕ
  day : ℕ
  hour : ℕ
  minute : ℕ
  second : ℕ
  millisecond : ℕ
  deriving DecidableEq

/-- The day number of the first day of a year. -/
def dayFromYear (y : ℤ) : ℤ :=
  365 * (y - 1970) + (y - 1969) / 4 - (y - 1901) / 100 + (y - 1601) / 400

/-- The year a day number falls into: the mean year length gives it up to one. -/
def yearFromDay (d : ℤ) : ℤ :=
  let y := 1970 + d * 400 / 146097
  if d < dayFromYear y then y - 1 else if dayFromYear (y + 1) ≤ d then y + 1 else y

/-- One in a leap year, zero otherwise. -/
def inLeapYear (y : ℤ) : ℤ :=
  if y % 4 = 0 ∧ (y % 100 ≠ 0 ∨ y % 400 = 0) then 1 else 0

/-- The days of a year before its month `m` (counted from zero), `l` being one in a leap year. -/
def daysBeforeMonth (l : ℤ) : ℕ → ℤ
  | 0 => 0
  | 1 => 31
  | 2 => 59 + l
  | 3 => 90 + l
  | 4 => 120 + l
  | 5 => 151 + l
  | 6 => 181 + l
  | 7 => 212 + l
  | 8 => 243 + l
  | 9 => 273 + l
  | 10 => 304 + l
  | _ => 334 + l

/-- The month (counted from zero) that a day within a year falls into: the last one that starts
no later than the day. -/
def monthFromDay (l d : ℤ) : ℕ :=
  ((List.range 12).reverse.find? fun m => daysBeforeMonth l m ≤ d).getD 0

/-- The calendar fields of a time value. -/
def isoFields (t : ℤ) : IsoFields :=
  let d := t / 86400000
  let ms := t % 86400000
  let year := yearFromDay d
  let dayInYear := d - dayFromYear year
  let month := monthFromDay (inLeapYear year) dayInYear
  { year := year
    month := month + 1
    day := (dayInYear - daysBeforeMonth (inLeapYear year) month + 1).toNat
    hour := (ms / 3600000).toNat
    minute := (ms / 60000 % 60).toNat
    second := (ms / 1000 % 60).toNat
    millisecond := (ms % 1000).toNat }

/-- The time value that calendar fields stand for. -/
def IsoFields.time (f : IsoFields) : ℤ :=
  (dayFromYear f.year + daysBeforeMonth (inLeapYear f.year) (f.month - 1) + f.day - 1) * 86400000
    + f.hour * 3600000 + f.minute * 60000 + f.second * 1000 + f.millisecond

/-- A day number lies in the year found for it. -/
theorem dayFromYear_yearFromDay (d : ℤ) :
    dayFromYear (yearFromDay d) ≤ d ∧ d < dayFromYear (yearFromDay d + 1) := by
  unfold yearFromDay
  dsimp only
  split
  · rename_i hlt
    rw [sub_add_cancel]
    refine ⟨?_, hlt⟩
    unfold dayFromYear
    omega
  · rename_i hge
    split
    · rename_i hle
      refine ⟨hle, ?_⟩
      unfold dayFromYear
      omega
    · rename_i hlt
      exact ⟨not_lt.mp hge, not_le.mp hlt⟩

/-- A month starts no later than the days that fall into it. -/
theorem daysBeforeMonth_monthFromDay_le {l d : ℤ} (hd : 0 ≤ d) :
    daysBeforeMonth l (monthFromDay l d) ≤ d := by
  unfold monthFromDay
  cases h : (List.range 12).reverse.find? fun m => decide (daysBeforeMonth l m ≤ d) with
  | none => exact hd
  | some m =>
    have hm := List.find?_some h
    exact of_decide_eq_true hm

/-- The calendar fields of a time value compose back to it. -/
theorem time_isoFields (t : ℤ) : (isoFields t).time = t := by
  have hyear := (dayFromYear_yearFromDay (t / 86400000)).1
  have hmonth := daysBeforeMonth_monthFromDay_le
    (l := inLeapYear (yearFromDay (t / 86400000))) (sub_nonneg.mpr hyear)
  simp only [IsoFields.time, isoFields, Nat.add_sub_cancel]
  omega

/-! ## The text of the fields -/

/-- The year as printed: four digits, or a sign and six digits. -/
def yearText (y : ℤ) : String :=
  if 0 ≤ y ∧ y ≤ 9999 then padded 4 y.toNat
  else if y < 0 then "-" ++ padded 6 y.natAbs
  else "+" ++ padded 6 y.natAbs

/-- The ISO text of calendar fields. -/
def IsoFields.text (f : IsoFields) : String :=
  yearText f.year ++ "-" ++ padded 2 f.month ++ "-" ++ padded 2 f.day ++ "T" ++ padded 2 f.hour
    ++ ":" ++ padded 2 f.minute ++ ":" ++ padded 2 f.second ++ "." ++ padded 3 f.millisecond
    ++ "Z"

/-- `date.toISOString()`. -/
def Date.toISOString (d : Date) : String :=
  (isoFields d.time).text

/-- A text that starts with a sign is not the text of a padded numeral. -/
theorem padded_append_ne_cons {width n : ℕ} {c : Char} (hc : c.isDigit = false) (r s : List Char) :
    (padded width n).toList ++ r ≠ c :: s := by
  intro h
  cases hp : (padded width n).toList with
  | nil => exact padded_toList_ne_nil width n hp
  | cons d l =>
    have hd : d.isDigit = true := isDigit_of_mem_padded (hp ▸ List.mem_cons_self)
    rw [hp, List.cons_append, List.cons.injEq] at h
    rw [h.1, hc] at hd
    exact Bool.noConfusion hd

/-- Equal signed years behind the same sign have the same absolute value. -/
theorem signedYear_cancel {c : Char} {a b : ℕ} {r s : List Char}
    (h : ((String.singleton c ++ padded 6 a).toList ++ ['-']) ++ r
      = ((String.singleton c ++ padded 6 b).toList ++ ['-']) ++ s) : a = b ∧ r = s := by
  simp only [String.toList_append, String.toList_singleton, List.append_assoc,
    List.cons_append, List.nil_append, List.cons.injEq, true_and] at h
  exact selfDelimiting_padded 6 (c := '-') (by decide) (by simpa using h)

/-- The three shapes of a printed year. -/
theorem yearText_cases (y : ℤ) :
    (0 ≤ y ∧ yearText y = padded 4 y.toNat) ∨
    (y < 0 ∧ yearText y = String.singleton '-' ++ padded 6 y.natAbs) ∨
    (9999 < y ∧ yearText y = String.singleton '+' ++ padded 6 y.natAbs) := by
  unfold yearText
  split
  · rename_i h
    exact Or.inl ⟨h.1, rfl⟩
  · rename_i h
    split
    · rename_i hneg
      exact Or.inr (Or.inl ⟨hneg, rfl⟩)
    · exact Or.inr (Or.inr ⟨by omega, rfl⟩)

/-- An unsigned year is not a signed one. -/
theorem plainYear_ne_signedYear {c : Char} (hc : c.isDigit = false) {a b : ℕ} {r s : List Char} :
    ((padded 4 a).toList ++ ['-']) ++ r
      ≠ ((String.singleton c ++ padded 6 b).toList ++ ['-']) ++ s := by
  intro h
  simp only [String.toList_append, String.toList_singleton, List.append_assoc,
    List.cons_append] at h
  exact padded_append_ne_cons hc _ _ h

/-- A printed year followed by a dash can be read off the front of a text. -/
theorem selfDelimiting_yearText : SelfDelimiting fun y : ℤ => (yearText y).toList ++ ['-'] := by
  intro a b r s h
  dsimp only at h
  rcases yearText_cases a with ⟨ha, ea⟩ | ⟨ha, ea⟩ | ⟨ha, ea⟩ <;>
    rcases yearText_cases b with ⟨hb, eb⟩ | ⟨hb, eb⟩ | ⟨hb, eb⟩ <;>
    rw [ea, eb] at h
  · obtain ⟨hab, hrs⟩ := selfDelimiting_padded 4 (c := '-') (by decide) h
    exact ⟨by omega, hrs⟩
  · exact absurd h (plainYear_ne_signedYear (by decide))
  · exact absurd h (plainYear_ne_signedYear (by decide))
  · exact absurd h.symm (plainYear_ne_signedYear (by decide))
  · obtain ⟨hab, hrs⟩ := signedYear_cancel h
    exact ⟨by omega, hrs⟩
  · simp at h
  · exact absurd h.symm (plainYear_ne_signedYear (by decide))
  · simp at h
  · obtain ⟨hab, hrs⟩ := signedYear_cancel h
    exact ⟨by omega, hrs⟩

/-- The ISO text determines the fields. -/
theorem IsoFields.text_injective : Function.Injective IsoFields.text := by
  have two : ∀ {c : Char}, c.isDigit = false →
      SelfDelimiting fun n : ℕ => (padded 2 n).toList ++ [c] := selfDelimiting_padded 2
  have code := (((((selfDelimiting_yearText.prod (two (c := '-') (by decide))).prod
    (two (c := 'T') (by decide))).prod (two (c := ':') (by decide))).prod
    (two (c := ':') (by decide))).prod (two (c := '.') (by decide))).prod
    (selfDelimiting_padded 3 (c := 'Z') (by decide))
  intro f g h
  have htext : ∀ f : IsoFields, f.text.toList =
      ((((((yearText f.year).toList ++ ['-'] ++ ((padded 2 f.month).toList ++ ['-'])) ++
        ((padded 2 f.day).toList ++ ['T'])) ++ ((padded 2 f.hour).toList ++ [':'])) ++
        ((padded 2 f.minute).toList ++ [':'])) ++ ((padded 2 f.second).toList ++ ['.'])) ++
        ((padded 3 f.millisecond).toList ++ ['Z']) := by
    intro f
    simp [IsoFields.text]
  have hlist := (htext f).symm.trans ((congrArg String.toList h).trans (htext g))
  have hfields := @SelfDelimiting.injective _ _ _ code
    ((((((f.year, f.month), f.day), f.hour), f.minute), f.second), f.millisecond)
    ((((((g.year, g.month), g.day), g.hour), g.minute), g.second), g.millisecond) hlist
  simp only [Prod.mk.injEq] at hfields
  obtain ⟨⟨⟨⟨⟨⟨hy, hmo⟩, hd⟩, hh⟩, hmi⟩, hs⟩, hms⟩ := hfields
  cases f
  cases g
  simp_all

/-- The ISO text determines the date. -/
theorem Date.toISOString_injective : Function.Injective Date.toISOString := by
  intro d e h
  have hfields : isoFields d.time = isoFields e.time := IsoFields.text_injective h
  have htime : d.time = e.time := by
    rw [← time_isoFields d.time, hfields, time_isoFields]
  cases d
  cases e
  simp_all

example : (isoFields 951827696789).text = "2000-02-29T12:34:56.789Z" := by decide

end Verixa
