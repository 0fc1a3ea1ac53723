import Verixa.Arithmetic.Binary64
import Verixa.Encoding.JsonRoundTrip
import Verixa.SharedKernel.Errors
import Verixa.SharedKernel.Number

/-!
# Cookies

`serializeCookie` puts the fields of a cookie one behind the other, after it has checked each of
them, and `expireCookie` makes the cookie that deletes another.  A header is a `Set-Cookie` value
when it can be split again into just these fields (`IsSetCookie`).

`String(number)` is known to give the digits of a whole number below `10 ^ 21`, or of one that is
read as the same double, and an exponent from there on.  That exponent is what no check excludes:
`safeCookie_iff` says that it alone can spoil a header.
-/

namespace Verixa.Sessions

open Encoding

/-! ## Texts of numbers and dates -/

/-- `String(number)`. -/
structure NumberText where
  text : Number → String
  /-- Below `10 ^ 21` there are only digits, which are read as the number. -/
  natural : ∀ n : ℕ, n < 10 ^ 21 →
    ∃ m : ℕ, text (.finite n) = Nat.repr m ∧ Binary64.round m = Binary64.round n
  /-- From there on there is an exponent. -/
  large : ∀ n : ℕ, 10 ^ 21 ≤ n → 'e' ∈ (text (.finite n)).toList ∧
    ∀ c ∈ (text (.finite n)).toList, c.isDigit ∨ c = '.' ∨ c = 'e' ∨ c = '+'

/-- The names of the days of the week. -/
def dayNames : List String := ["Sun", "Mon", "Tue", "Wed", "Thu", "Fri", "Sat"]

/-- The names of the months. -/
def monthNames : List String :=
  ["Jan", "Feb", "Mar", "Apr", "May", "Jun", "Jul", "Aug", "Sep", "Oct", "Nov", "Dec"]

/-- `date.toUTCString()`, where there is no date if it is invalid. -/
def toUTCString : Option Date → String
  | none => "Invalid Date"
  | some date =>
    let fields := isoFields date.time
    let weekday := ((date.time / 86400000 + 4) % 7).toNat
    dayNames.getD weekday "" ++ ", " ++ padded 2 fields.day ++ " " ++
      monthNames.getD (fields.month - 1) "" ++ " " ++
      (if fields.year < 0 then "-" else "") ++ padded 4 fields.year.natAbs ++ " " ++
      padded 2 fields.hour ++ ":" ++ padded 2 fields.minute ++ ":" ++ padded 2 fields.second ++
      " GMT"

/-! ## Cookies -/

/-- The `SameSite` modes. -/
inductive SameSiteMode where
  | strict
  | lax
  | none
  deriving DecidableEq

/-- A mode as it is written. -/
def SameSiteMode.text : SameSiteMode → String
  | .strict => "Strict"
  | .lax => "Lax"
  | .none => "None"

/-- A cookie before serialization. -/
structure CookieAttributes where
  name : String
  value : String
  path : String
  httpOnly : Bool
  secure : Bool
  sameSite : SameSiteMode
  maxAgeSeconds : Option Number := Option.none
  /-- An invalid date is `some none`. -/
  expires : Option (Option Date) := Option.none
  partitioned : Option Bool := Option.none
  deriving DecidableEq

/-- A character of `COOKIE_NAME`. -/
def isNameChar (c : Char) : Bool := c.isAlphanum || "!#$%&'*+-.^_`|~".toList.contains c

/-- A character of `COOKIE_VALUE` and, behind the first, of `COOKIE_PATH`. -/
def isValueChar (c : Char) : Bool :=
  c.toNat == 0x21 || decide (0x23 ≤ c.toNat ∧ c.toNat ≤ 0x2b) ||
    decide (0x2d ≤ c.toNat ∧ c.toNat ≤ 0x3a) || decide (0x3c ≤ c.toNat ∧ c.toNat ≤ 0x5b) ||
    decide (0x5d ≤ c.toNat ∧ c.toNat ≤ 0x7e)

/-- The fields that have a pattern. -/
inductive CookieField where
  | name
  | value
  | path
  deriving DecidableEq

/-- The name of a field. -/
def CookieField.text : CookieField → String
  | .name => "name"
  | .value => "value"
  | .path => "path"

/-- The test of a field's pattern. -/
def CookieField.test (field : CookieField) (value : List Char) : Bool :=
  match field with
  | .name => value != [] && value.all isNameChar
  | .value => value.all isValueChar
  | .path => value.head? == some '/' && value.tail.all isValueChar

/-- What the messages about a field end with. -/
def FORBIDDEN : String :=
  "is outside the RFC 6265 character set. A semicolon ends the attribute list early " ++
  "and turns one cookie into two; a control character would let this field start a " ++
  "header of its own in the response."

/-- `assertCookieField`. -/
def assertCookieField (cookieName : String) (field : CookieField) (value : String) :
    Except ThrownError Unit :=
  if field.test value.toList then .ok ()
  else
    let subject := if field = .name then "A cookie name"
      else "Cookie \"" ++ cookieName ++ "\" has a " ++ field.text ++ " that"
    .error ⟨"RangeError", subject ++ " " ++ FORBIDDEN⟩

/-- `Number.isInteger(number)`. -/
def isInteger : Number → Bool
  | .finite value => value.isInt
  | _ => false

/-- `throw new RangeError(message)` under a condition. -/
def refuseIf (condition : Bool) (message : String) : Except ThrownError Unit :=
  if condition then .error ⟨"RangeError", message⟩ else .ok ()

section Serialize

variable (texts : NumberText)

/-- The check of a maximal age. -/
def checkMaxAge (name : String) : Option Number → Except ThrownError Unit
  | none => .ok ()
  | some maxAgeSeconds =>
    refuseIf (!isInteger maxAgeSeconds || maxAgeSeconds.lt (.finite 0))
      ("Cookie \"" ++ name ++ "\": Max-Age must be a non-negative integer number of " ++
        "seconds, got " ++ texts.text maxAgeSeconds ++ ".")

/-- The checks of `serializeCookie`. -/
def checkCookie (attributes : CookieAttributes) : Except ThrownError Unit := do
  assertCookieField attributes.name .name attributes.name
  assertCookieField attributes.name .value attributes.value
  assertCookieField attributes.name .path attributes.path
  refuseIf (attributes.sameSite == .none && !attributes.secure)
    ("Cookie \"" ++ attributes.name ++ "\": SameSite=None requires Secure. " ++
      "A cross-site cookie sent over plaintext is readable by anyone on the path.")
  refuseIf (attributes.partitioned == some true && !attributes.secure)
    ("Cookie \"" ++ attributes.name ++ "\": Partitioned requires Secure. " ++
      "A partitioned cookie is stored under a top-site frame that may be plaintext.")
  checkMaxAge texts attributes.name attributes.maxAgeSeconds

/-- The parts that `serializeCookie` joins. -/
def cookieParts (attributes : CookieAttributes) : List String :=
  [attributes.name ++ "=" ++ attributes.value, "Path=" ++ attributes.path] ++
    (attributes.maxAgeSeconds.map fun seconds => "Max-Age=" ++ texts.text seconds).toList ++
    (attributes.expires.map fun date => "Expires=" ++ toUTCString date).toList ++
    (if attributes.httpOnly then ["HttpOnly"] else []) ++
    (if attributes.secure then ["Secure"] else []) ++
    ["SameSite=" ++ attributes.sameSite.text] ++
    (if attributes.partitioned = some true then ["Partitioned"] else [])

/-- `serializeCookie`. -/
def serializeCookie (attributes : CookieAttributes) : Except ThrownError String := do
  checkCookie texts attributes
  return "; ".intercalate (cookieParts texts attributes)

end Serialize

theorem inRange_zero : -maxTime ≤ 0 ∧ 0 ≤ maxTime := by decide

/-- `new Date(0)`. -/
def EPOCH : Date := ⟨0, inRange_zero⟩

/-- `expireCookie`. -/
def expireCookie (attributes : CookieAttributes) : CookieAttributes where
  name := attributes.name
  value := ""
  path := attributes.path
  httpOnly := attributes.httpOnly
  secure := attributes.secure
  sameSite := attributes.sameSite
  maxAgeSeconds := some (.finite 0)
  expires := some (some EPOCH)
  partitioned := attributes.partitioned

/-! ## Digits and exponents -/

/-- The text of a large number. -/
theorem mem_naturalText {n : ℕ} (h : 10 ^ 21 ≤ n) : 'e' ∈ Json.naturalText n ∧
    ∀ c ∈ Json.naturalText n, c.isDigit = true ∨ c = '.' ∨ c = 'e' ∨ c = '+' := by
  have hpos : 0 < n := lt_of_lt_of_le (by decide) h
  obtain ⟨first, others, k, hdrop, hdigits, -⟩ := Json.exists_significant hpos
  have hmantissa : ∀ c ∈ first :: others, c.isDigit = true := by
    intro c hc
    have hmem : c ∈ Nat.toDigits 10 n := hdigits ▸ List.mem_append_left _ hc
    exact Nat.isDigit_of_mem_toDigits (by decide) (by decide) hmem
  have hexponent : ∀ c ∈ Nat.toDigits 10 ((Nat.toDigits 10 n).length - 1), c.isDigit = true :=
    fun c hc => Nat.isDigit_of_mem_toDigits (by decide) (by decide) hc
  rw [Json.naturalText, if_neg (not_lt.mpr h), hdrop]
  rcases others with _ | ⟨second, others⟩
  · refine ⟨by simp, fun c hc => ?_⟩
    simp only [List.mem_cons, List.not_mem_nil, or_false] at hc hmantissa
    rcases hc with hfirst | rfl | rfl | hc
    · exact .inl (hmantissa c hfirst)
    · exact .inr (.inr (.inl rfl))
    · exact .inr (.inr (.inr rfl))
    · exact .inl (hexponent c hc)
  · refine ⟨by simp, fun c hc => ?_⟩
    simp only [List.mem_cons, List.mem_append] at hc hmantissa
    rcases hc with hfirst | rfl | (hsecond | hothers) | rfl | rfl | hc
    · exact .inl (hmantissa c (.inl hfirst))
    · exact .inr (.inl rfl)
    · exact .inl (hmantissa c (.inr (.inl hsecond)))
    · exact .inl (hmantissa c (.inr (.inr hothers)))
    · exact .inr (.inr (.inl rfl))
    · exact .inr (.inr (.inr rfl))
    · exact .inl (hexponent c hc)

/-- The texts of whole numbers with all their digits. -/
def exactNumberText : NumberText where
  text
    | .finite value => String.ofList (Json.naturalText value.num.toNat)
    | _ => "NaN"
  natural n h := by
    refine ⟨n, ?_, rfl⟩
    have hdigits : Json.naturalText n = Nat.toDigits 10 n := if_pos h
    simp only [Rat.num_natCast, Int.toNat_natCast, hdigits, Nat.repr_eq_ofList_toDigits]
  large n h := by simpa using mem_naturalText h

/-! ## What a header is -/

/-- `header.split("; ")`. -/
def splitParts : List Char → List (List Char)
  | ';' :: ' ' :: rest => [] :: splitParts rest
  | c :: rest => (splitParts rest).modifyHead (c :: ·)
  | [] => [[]]

/-- A control character. -/
def isControl (c : Char) : Prop := c.toNat < 0x20 ∨ 0x7f ≤ c.toNat ∧ c.toNat ≤ 0x9f

/-- The parts that the attributes select, in their order. -/
def selectedParts (attributes : CookieAttributes) (maxAge : Option ℕ) : List String :=
  [some (attributes.name ++ "=" ++ attributes.value), some ("Path=" ++ attributes.path),
    maxAge.map fun seconds => "Max-Age=" ++ Nat.repr seconds,
    attributes.expires.map fun date => "Expires=" ++ toUTCString date,
    if attributes.httpOnly then some "HttpOnly" else none,
    if attributes.secure then some "Secure" else none,
    some ("SameSite=" ++ attributes.sameSite.text),
    if attributes.partitioned = some true then some "Partitioned" else none].reduceOption

/-- The whole number is the one that the digits of a maximal age denote, as a double and, where
doubles are exact, as it is. -/
def IsMaxAge (seconds : ℕ) (maxAgeSeconds : Number) : Prop :=
  ∃ n : ℕ, maxAgeSeconds = .finite n ∧ Binary64.round seconds = Binary64.round n ∧
    (n < 2 ^ 53 → seconds = n)

/-- The header says what the attributes do, and nothing else. -/
structure IsSetCookie (attributes : CookieAttributes) (header : String) : Prop where
  noControl : ∀ c ∈ header.toList, ¬ isControl c
  name : header.toList.takeWhile (· ≠ '=') = attributes.name.toList
  parts : ∃ maxAge, Option.Rel IsMaxAge maxAge attributes.maxAgeSeconds ∧
    splitParts header.toList = (selectedParts attributes maxAge).map String.toList

/-- The cookie is refused or becomes a header that says what it does, and with it the cookie that
deletes it is accepted. -/
def SafeCookie (texts : NumberText) (attributes : CookieAttributes) : Prop :=
  ((∃ error, serializeCookie texts attributes = .error error) ∨
      ∃ header, serializeCookie texts attributes = .ok header ∧ IsSetCookie attributes header) ∧
    ((∃ header, serializeCookie texts attributes = .ok header) →
      ∃ header, serializeCookie texts (expireCookie attributes) = .ok header ∧
        IsSetCookie { attributes with
          value := ""
          maxAgeSeconds := some (.finite 0)
          expires := some (some EPOCH) } header)

/-- The checks of a cookie. -/
structure IsAccepted (attributes : CookieAttributes) : Prop where
  name : CookieField.name.test attributes.name.toList = true
  value : CookieField.value.test attributes.value.toList = true
  path : CookieField.path.test attributes.path.toList = true
  sameSite : attributes.sameSite = .none → attributes.secure = true
  partitioned : attributes.partitioned = some true → attributes.secure = true
  maxAgeSeconds : ∀ number, attributes.maxAgeSeconds = some number → ∃ n : ℕ, number = .finite n

section Split

variable {part rest : List Char}

/-- A part without a semicolon, and a separator. -/
theorem splitParts_append (h : ';' ∉ part) :
    splitParts (part ++ ';' :: ' ' :: rest) = part :: splitParts rest := by
  induction part with
  | nil => rw [List.nil_append, splitParts]
  | cons c part ih =>
    have hc : ¬ c = ';' := fun heq => h (heq ▸ List.mem_cons_self)
    have hcons : splitParts (c :: (part ++ ';' :: ' ' :: rest)) =
        (splitParts (part ++ ';' :: ' ' :: rest)).modifyHead (c :: ·) := by
      rw [splitParts]
      rintro rest' rfl
      exact absurd rfl hc
    rw [List.cons_append, hcons, ih fun hmem => h (List.mem_cons_of_mem _ hmem)]
    rfl

theorem splitParts_of_notMem (h : ';' ∉ part) : splitParts part = [part] := by
  induction part with
  | nil => rfl
  | cons c part ih =>
    have hc : ¬ c = ';' := fun heq => h (heq ▸ List.mem_cons_self)
    have hcons : splitParts (c :: part) = (splitParts part).modifyHead (c :: ·) := by
      rw [splitParts]
      rintro rest' rfl
      exact absurd rfl hc
    rw [hcons, ih fun hmem => h (List.mem_cons_of_mem _ hmem)]
    rfl

/-- Parts without semicolons that are joined are found again. -/
theorem splitParts_intercalate {parts : List (List Char)} (hne : parts ≠ [])
    (h : ∀ part ∈ parts, ';' ∉ part) : splitParts ([';', ' '].intercalate parts) = parts := by
  induction parts with
  | nil => exact absurd rfl hne
  | cons part parts ih =>
    rcases parts with _ | ⟨next, parts⟩
    · rw [List.intercalate_singleton, splitParts_of_notMem (h part List.mem_cons_self)]
    · have hrest := ih (List.cons_ne_nil _ _) fun part hpart =>
        h part (List.mem_cons_of_mem _ hpart)
      rw [List.intercalate_cons_cons, List.append_assoc, List.cons_append, List.cons_append,
        List.nil_append, splitParts_append (h part List.mem_cons_self), hrest]

end Split

/-! ## Characters of the parts -/

/-- A character that stays within its part: printable or a space, and no semicolon. -/
def staysInPart (c : Char) : Bool := decide (0x20 ≤ c.toNat ∧ c.toNat ≤ 0x7e) && c != ';'

/-- The text has no other characters. -/
def StaysInPart (text : String) : Prop := ∀ c ∈ text.toList, staysInPart c = true

section Characters

variable {c : Char} {text : String}

theorem staysInPart_iff :
    staysInPart c = true ↔ 0x20 ≤ c.toNat ∧ c.toNat ≤ 0x7e ∧ c.toNat ≠ 59 := by
  have hsemicolon : c ≠ ';' ↔ c.toNat ≠ 59 := (Char.toNat_inj (c := c) (d := ';')).symm.not
  rw [staysInPart, Bool.and_eq_true, decide_eq_true_eq, bne_iff_ne, hsemicolon, and_assoc]

theorem StaysInPart.append {other : String} (h : StaysInPart text) (hother : StaysInPart other) :
    StaysInPart (text ++ other) := by
  intro c hc
  rw [String.toList_append, List.mem_append] at hc
  exact hc.elim (h c) (hother c)

/-- A digit. -/
theorem staysInPart_of_isDigit (h : c.isDigit = true) : staysInPart c = true := by
  have hdigit := isDigit_iff.mp h
  exact staysInPart_iff.mpr (by omega)

theorem staysInPart_padded (width n : ℕ) : StaysInPart (padded width n) :=
  fun _ hc => staysInPart_of_isDigit (isDigit_of_mem_padded hc)

/-- A character of a name. -/
theorem staysInPart_of_isNameChar (h : isNameChar c = true) :
    staysInPart c = true ∧ c ≠ '=' := by
  rw [isNameChar, Bool.or_eq_true, isAlphanum_iff, List.contains_iff_mem] at h
  rcases h with halphanum | hmem
  · refine ⟨staysInPart_iff.mpr (by omega), ?_⟩
    rintro rfl
    exact absurd halphanum (by decide)
  · have hothers : ∀ d ∈ "!#$%&'*+-.^_`|~".toList, staysInPart d = true ∧ d ≠ '=' := by
      simp [staysInPart]
    exact hothers c hmem

/-- A character of a value or a path. -/
theorem staysInPart_of_isValueChar (h : isValueChar c = true) : staysInPart c = true := by
  simp only [isValueChar, Bool.or_eq_true, beq_iff_eq, decide_eq_true_eq] at h
  exact staysInPart_iff.mpr (by omega)

/-- A name from a list of names. -/
theorem staysInPart_getD {names : List String} (h : ∀ name ∈ names, StaysInPart name) (i : ℕ) :
    StaysInPart (names.getD i "") := by
  rw [List.getD_eq_getElem?_getD]
  rcases hname : names[i]? with _ | name
  · exact fun c hc => absurd hc (by simp)
  · exact h name (List.mem_of_getElem? hname)

/-- The text of a date. -/
theorem staysInPart_toUTCString (date : Option Date) : StaysInPart (toUTCString date) := by
  rcases date with _ | date
  · rw [toUTCString]
    simp [StaysInPart, staysInPart]
  · have hdays : ∀ name ∈ dayNames, StaysInPart name := by
      simp [dayNames, StaysInPart, staysInPart]
    have hmonths : ∀ name ∈ monthNames, StaysInPart name := by
      simp [monthNames, StaysInPart, staysInPart]
    have hsign : StaysInPart (if (isoFields date.time).year < 0 then "-" else "") := by
      split <;> simp [StaysInPart, staysInPart]
    have hcomma : StaysInPart ", " := by simp [StaysInPart, staysInPart]
    have hspace : StaysInPart " " := by simp [StaysInPart, staysInPart]
    have hcolon : StaysInPart ":" := by simp [StaysInPart, staysInPart]
    have hzone : StaysInPart " GMT" := by simp [StaysInPart, staysInPart]
    have hdate := ((((((((staysInPart_getD hdays ((date.time / 86400000 + 4) % 7).toNat).append
      hcomma).append (staysInPart_padded 2 (isoFields date.time).day)).append hspace).append
      (staysInPart_getD hmonths ((isoFields date.time).month - 1))).append hspace).append
      hsign).append (staysInPart_padded 4 (isoFields date.time).year.natAbs)).append hspace
    exact (((((hdate.append (staysInPart_padded 2 (isoFields date.time).hour)).append
      hcolon).append (staysInPart_padded 2 (isoFields date.time).minute)).append hcolon).append
      (staysInPart_padded 2 (isoFields date.time).second)).append hzone

end Characters

/-! ## Serialization -/

section Serialization

variable {texts : NumberText} {attributes : CookieAttributes}

/-- Whole numbers that are not negative. -/
theorem isInteger_iff {number : Number} :
    (isInteger number = true ∧ number.lt (.finite 0) = false) ↔ ∃ n : ℕ, number = .finite n := by
  constructor
  · rintro ⟨hinteger, hnonneg⟩
    cases number with
    | finite value =>
      have hvalue : ((value.num : ℤ) : ℚ) = value := Rat.coe_int_num_of_den_eq_one (by
        simpa [isInteger, Rat.isInt] using hinteger)
      have hzero : 0 ≤ value := by simpa [Number.lt] using hnonneg
      have hnum : 0 ≤ value.num := Rat.num_nonneg.mpr hzero
      refine ⟨value.num.toNat, ?_⟩
      rw [← Int.cast_natCast, Int.toNat_of_nonneg hnum, hvalue]
    | nan => cases hinteger
    | negativeInfinity => cases hinteger
    | infinity => cases hinteger
  · rintro ⟨n, rfl⟩
    exact ⟨by simp [isInteger, Rat.isInt], by simp [Number.lt]⟩

/-- A check and what comes behind it. -/
theorem then_eq_ok_iff {α : Type} {check : Except ThrownError Unit} {rest : Except ThrownError α}
    {result : α} :
    (do check; rest) = .ok result ↔ check = .ok () ∧ rest = .ok result := by
  cases check with
  | error error => simp [bind, Except.bind]
  | ok _ => simp [bind, Except.bind]

theorem refuseIf_eq_ok_iff {condition : Bool} {message : String} :
    refuseIf condition message = .ok () ↔ condition = false := by
  cases condition <;> simp [refuseIf]

/-- A field that its pattern accepts. -/
theorem assertCookieField_eq_ok_iff {cookieName value : String} {field : CookieField} :
    assertCookieField cookieName field value = .ok () ↔ field.test value.toList = true := by
  rw [assertCookieField]
  split
  · rename_i htest
    simp [htest]
  · rename_i htest
    simp [htest]

/-- What the checks accept. -/
theorem checkCookie_eq_ok_iff : checkCookie texts attributes = .ok () ↔ IsAccepted attributes := by
  have hmaxAge : checkMaxAge texts attributes.name attributes.maxAgeSeconds = .ok () ↔
      ∀ number, attributes.maxAgeSeconds = some number → ∃ n : ℕ, number = .finite n := by
    rcases attributes.maxAgeSeconds with _ | number
    · simp [checkMaxAge]
    · rw [checkMaxAge, refuseIf_eq_ok_iff]
      simp [← isInteger_iff]
  simp only [checkCookie, then_eq_ok_iff, assertCookieField_eq_ok_iff, refuseIf_eq_ok_iff, hmaxAge]
  constructor
  · rintro ⟨hname, hvalue, hpath, hsameSite, hpartitioned, hnumber⟩
    exact ⟨hname, hvalue, hpath, by simpa using hsameSite, by simpa using hpartitioned, hnumber⟩
  · rintro ⟨hname, hvalue, hpath, hsameSite, hpartitioned, hnumber⟩
    exact ⟨hname, hvalue, hpath, by simpa using hsameSite, by simpa using hpartitioned, hnumber⟩

/-- What becomes of a cookie that is accepted. -/
theorem serializeCookie_eq_ok_iff {header : String} :
    serializeCookie texts attributes = .ok header ↔ IsAccepted attributes ∧
      header = "; ".intercalate (cookieParts texts attributes) := by
  rw [serializeCookie, then_eq_ok_iff, checkCookie_eq_ok_iff]
  exact and_congr_right fun _ => ⟨fun h => (Except.ok.inj h).symm, fun h => congrArg _ h.symm⟩

/-- Every character of every part of an accepted cookie stays in its part. -/
theorem staysInPart_cookieParts (h : IsAccepted attributes) :
    ∀ part ∈ cookieParts texts attributes, StaysInPart part := by
  have hname : StaysInPart attributes.name := by
    intro c hc
    have hall := (Bool.and_eq_true_iff.mp h.name).2
    exact (staysInPart_of_isNameChar (List.all_eq_true.mp hall c hc)).1
  have hvalue : StaysInPart attributes.value := fun c hc =>
    staysInPart_of_isValueChar (List.all_eq_true.mp h.value c hc)
  have hpath : StaysInPart attributes.path := by
    intro c hc
    obtain ⟨hfirst, hall⟩ := Bool.and_eq_true_iff.mp h.path
    obtain ⟨rest, hrest⟩ := List.head?_eq_some_iff.mp (beq_iff_eq.mp hfirst)
    rw [hrest] at hc hall
    rcases List.mem_cons.mp hc with rfl | hmem
    · decide
    · exact staysInPart_of_isValueChar (List.all_eq_true.mp hall c hmem)
  have hseconds : ∀ number, attributes.maxAgeSeconds = some number →
      StaysInPart (texts.text number) := by
    intro number hnumber c hc
    obtain ⟨n, rfl⟩ := h.maxAgeSeconds number hnumber
    rcases lt_or_ge n (10 ^ 21) with hsmall | hlarge
    · obtain ⟨m, htext, -⟩ := texts.natural n hsmall
      rw [htext] at hc
      exact staysInPart_of_isDigit (isDigit_of_mem_repr hc)
    · rcases (texts.large n hlarge).2 c hc with hdigit | rfl | rfl | rfl
      · exact staysInPart_of_isDigit hdigit
      all_goals decide
  have hliteral : StaysInPart "=" ∧ StaysInPart "Path=" ∧ StaysInPart "Max-Age=" ∧
      StaysInPart "Expires=" ∧ StaysInPart "HttpOnly" ∧ StaysInPart "Secure" ∧
      StaysInPart "SameSite=" ∧ StaysInPart "Partitioned" := by
    simp [StaysInPart, staysInPart]
  obtain ⟨hequals, hpathName, hmaxAge, hexpires, hhttpOnly, hsecure, hsameSite, hpartitioned⟩ :=
    hliteral
  have hmode : StaysInPart attributes.sameSite.text := by
    cases attributes.sameSite <;> simp [SameSiteMode.text, StaysInPart, staysInPart]
  intro part hpart
  simp only [cookieParts, List.mem_append, List.mem_cons, List.not_mem_nil, or_false,
    Option.mem_toList, Option.map_eq_some_iff] at hpart
  rcases hpart with (((((((rfl | rfl) | ⟨number, hnumber, rfl⟩) | ⟨date, -, rfl⟩) | hhttp) |
    hsec) | rfl) | hpar)
  · exact (hname.append hequals).append hvalue
  · exact hpathName.append hpath
  · exact hmaxAge.append (hseconds number hnumber)
  · exact hexpires.append (staysInPart_toUTCString date)
  · split at hhttp
    · exact List.mem_singleton.mp hhttp ▸ hhttpOnly
    · cases hhttp
  · split at hsec
    · exact List.mem_singleton.mp hsec ▸ hsecure
    · cases hsec
  · exact hsameSite.append hmode
  · split at hpar
    · exact List.mem_singleton.mp hpar ▸ hpartitioned
    · cases hpar

/-- The parts are found again in the header. -/
theorem splitParts_header (h : IsAccepted attributes) :
    splitParts ("; ".intercalate (cookieParts texts attributes)).toList =
      (cookieParts texts attributes).map String.toList := by
  rw [String.toList_intercalate]
  refine splitParts_intercalate (by simp [cookieParts]) fun part hpart hmem => ?_
  obtain ⟨text, htext, rfl⟩ := List.mem_map.mp hpart
  exact absurd (staysInPart_cookieParts h text htext ';' hmem) (by decide)

/-- The characters of the header. -/
theorem noControl_header (h : IsAccepted attributes) :
    ∀ c ∈ ("; ".intercalate (cookieParts texts attributes)).toList, ¬ isControl c := by
  intro c hc
  rw [String.toList_intercalate] at hc
  rcases mem_intercalate hc with hseparator | ⟨part, hpart, hmem⟩
  · have hplain : ∀ d ∈ "; ".toList, ¬ isControl d := by simp [isControl]
    exact hplain c hseparator
  · obtain ⟨text, htext, rfl⟩ := List.mem_map.mp hpart
    have hstays := staysInPart_iff.mp (staysInPart_cookieParts h text htext c hmem)
    rw [isControl]
    omega

/-- The name is what stands before the first equals sign. -/
theorem takeWhile_header (h : IsAccepted attributes) :
    ("; ".intercalate (cookieParts texts attributes)).toList.takeWhile (· ≠ '=') =
      attributes.name.toList := by
  obtain ⟨others, hparts⟩ : ∃ others, cookieParts texts attributes =
      (attributes.name ++ "=" ++ attributes.value) :: ("Path=" ++ attributes.path) :: others := by
    simp only [cookieParts, List.append_assoc, List.cons_append, List.nil_append]
    exact ⟨_, rfl⟩
  have hname : ∀ c ∈ attributes.name.toList, decide (c ≠ '=') = true := by
    intro c hc
    have hall := (Bool.and_eq_true_iff.mp h.name).2
    exact decide_eq_true (staysInPart_of_isNameChar (List.all_eq_true.mp hall c hc)).2
  have hequals : "=".toList = ['='] := rfl
  rw [hparts, String.intercalate_cons_cons, String.toList_append, String.toList_append,
    String.toList_append, String.toList_append, hequals, List.append_assoc, List.append_assoc,
    List.append_assoc, List.takeWhile_append_of_pos hname, List.singleton_append,
    List.takeWhile_cons_of_neg (by decide), List.append_nil]

/-- The parts are those that the attributes select, with the maximal age as it is written. -/
theorem cookieParts_eq : cookieParts texts attributes =
    [some (attributes.name ++ "=" ++ attributes.value), some ("Path=" ++ attributes.path),
      attributes.maxAgeSeconds.map fun seconds => "Max-Age=" ++ texts.text seconds,
      attributes.expires.map fun date => "Expires=" ++ toUTCString date,
      if attributes.httpOnly then some "HttpOnly" else none,
      if attributes.secure then some "Secure" else none,
      some ("SameSite=" ++ attributes.sameSite.text),
      if attributes.partitioned = some true then some "Partitioned" else none].reduceOption := by
  rw [cookieParts]
  rcases attributes.maxAgeSeconds <;> rcases attributes.expires <;> split_ifs <;> rfl

/-- The header of an accepted cookie says what the attributes do just if its maximal age is
written in digits. -/
theorem isSetCookie_iff (h : IsAccepted attributes) :
    IsSetCookie attributes ("; ".intercalate (cookieParts texts attributes)) ↔
      ∀ n : ℕ, attributes.maxAgeSeconds = some (.finite n) → n < 10 ^ 21 := by
  constructor
  · rintro ⟨-, -, maxAge, hmaxAge, hsplit⟩ n hn
    rw [splitParts_header h] at hsplit
    have hparts : cookieParts texts attributes = selectedParts attributes maxAge :=
      List.map_injective_iff.mpr (fun _ _ => String.toList_inj.mp) hsplit
    by_contra hlarge
    rw [hn] at hmaxAge
    obtain ⟨m, rfl⟩ : ∃ m, maxAge = some m := by
      cases hmaxAge with
      | some _ => exact ⟨_, rfl⟩
    -- the third part of the header is the maximal age
    have hthird := congrArg (fun parts => parts[2]?) hparts
    have htext : texts.text (.finite n) = Nat.repr m := by
      simpa [cookieParts, selectedParts, hn, List.reduceOption] using hthird
    have hletter := (texts.large n (not_lt.mp hlarge)).1
    rw [htext] at hletter
    exact absurd (isDigit_of_mem_repr hletter) (by decide)
  · intro hsmall
    refine ⟨noControl_header h, takeWhile_header h, ?_⟩
    rw [splitParts_header h]
    rcases hnumber : attributes.maxAgeSeconds with _ | number
    · refine ⟨none, .none, congrArg _ ?_⟩
      rw [cookieParts_eq, selectedParts, hnumber]
      rfl
    · obtain ⟨n, rfl⟩ := h.maxAgeSeconds number hnumber
      obtain ⟨m, htext, hround⟩ := texts.natural n (hsmall n hnumber)
      refine ⟨some m, .some ⟨n, rfl, hround, fun hexact => ?_⟩, congrArg _ ?_⟩
      · exact Binary64.natCast_eq_of_round_eq hexact hround
      · rw [cookieParts_eq, selectedParts, hnumber, Option.map_some, htext, Option.map_some]

/-- The cookie that deletes an accepted one. -/
theorem IsAccepted.expireCookie (h : IsAccepted attributes) :
    IsAccepted (expireCookie attributes) where
  name := h.name
  value := rfl
  path := h.path
  sameSite := h.sameSite
  partitioned := h.partitioned
  maxAgeSeconds := by
    rintro number ⟨⟩
    exact ⟨0, by rw [Nat.cast_zero]⟩

end Serialization

/-- A cookie is safe unless it is accepted with a maximal age from `10 ^ 21` on. -/
theorem safeCookie_iff (texts : NumberText) (attributes : CookieAttributes) :
    SafeCookie texts attributes ↔ (IsAccepted attributes →
      ∀ n : ℕ, attributes.maxAgeSeconds = some (.finite n) → n < 10 ^ 21) := by
  constructor
  · rintro ⟨⟨error, herror⟩ | ⟨header, hheader, hset⟩, -⟩ haccepted
    · have hok : serializeCookie texts attributes = .ok _ :=
        serializeCookie_eq_ok_iff.mpr ⟨haccepted, rfl⟩
      rw [herror] at hok
      cases hok
    · obtain ⟨-, rfl⟩ := serializeCookie_eq_ok_iff.mp hheader
      exact (isSetCookie_iff haccepted).mp hset
  · intro h
    refine ⟨?_, ?_⟩
    · cases hheader : serializeCookie texts attributes with
      | error error => exact .inl ⟨error, rfl⟩
      | ok header =>
        obtain ⟨haccepted, rfl⟩ := serializeCookie_eq_ok_iff.mp hheader
        exact .inr ⟨_, rfl, (isSetCookie_iff haccepted).mpr (h haccepted)⟩
    · rintro ⟨header, hheader⟩
      have haccepted := (serializeCookie_eq_ok_iff.mp hheader).1.expireCookie
      refine ⟨_, serializeCookie_eq_ok_iff.mpr ⟨haccepted, rfl⟩,
        (isSetCookie_iff haccepted).mpr fun n hn => ?_⟩
      have hzero : (0 : ℚ) = n := Number.finite.inj (Option.some.inj hn)
      have hnat : n = 0 := by exact_mod_cast hzero.symm
      rw [hnat]
      decide

/-- A maximal age of `10 ^ 21` seconds is written `1e+21`. -/
theorem not_safeCookie_exponent : ¬ SafeCookie exactNumberText
    { name := "s", value := "v", path := "/", httpOnly := true, secure := true,
      sameSite := .strict, maxAgeSeconds := some (.finite (10 ^ 21 : ℕ)) } := by
  intro h
  have haccepted : IsAccepted
      { name := "s", value := "v", path := "/", httpOnly := true, secure := true,
        sameSite := .strict, maxAgeSeconds := some (.finite (10 ^ 21 : ℕ)) } :=
    ⟨by decide, by decide, by decide, by decide, by decide,
      fun number hnumber => ⟨10 ^ 21, (Option.some.inj hnumber).symm⟩⟩
  rcases h.1 with ⟨error, herror⟩ | ⟨header, hheader, hset⟩
  · have hok : serializeCookie exactNumberText _ = .ok _ :=
      serializeCookie_eq_ok_iff.mpr ⟨haccepted, rfl⟩
    rw [herror] at hok
    cases hok
  · obtain ⟨-, rfl⟩ := serializeCookie_eq_ok_iff.mp hheader
    exact absurd ((isSetCookie_iff haccepted).mp hset (10 ^ 21) rfl) (lt_irrefl _)

end Verixa.Sessions
