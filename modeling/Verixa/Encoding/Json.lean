import Verixa.Encoding.CodeUnits

/-!
# JSON

`JSON.parse` as a reader of characters, and `JSON.stringify` for records of strings and whole
numbers.  Numbers are exact.  The members of a parsed object are listed in the order in which they
stand; of members with the same name the last one counts.

A reader that goes into a value takes one unit of fuel and at least one character, so fuel for
every character is enough for any text.
-/

namespace Encoding

namespace Json

/-- A parsed value. -/
inductive Value where
  | null
  | bool (value : Bool)
  | number (value : ℚ)
  | string (units : CodeUnits)
  | array (items : List Value)
  | object (members : List (CodeUnits × Value))

/-- `value[name]` of a parsed value. -/
def Value.property (value : Value) (name : CodeUnits) : Option Value :=
  match value with
  | .object members => (members.reverse.find? fun member => member.1 == name).map Prod.snd
  | _ => none

/-! ## Reading -/

/-- The text behind the white space it begins with. -/
def skipWhiteSpace (text : List Char) : List Char :=
  text.dropWhile fun c => c == ' ' || c == '\t' || c == '\n' || c == '\r'

/-- The text behind a character, if it stands next. -/
def expect (c : Char) (text : List Char) : Option (List Char) :=
  match skipWhiteSpace text with
  | [] => none
  | d :: rest => if d = c then some rest else none

/-- The text behind a word, if it stands next. -/
def expectWord (word text : List Char) : Option (List Char) :=
  if word.isPrefixOf text then some (text.drop word.length) else none

/-- The number that decimal digits denote. -/
def ofDigits (digits : List Char) : ℕ := Nat.ofDigitChars 10 digits 0

/-- Some digits, and the text behind them. -/
def readDigits (text : List Char) : Option (List Char × List Char) :=
  let digits := text.takeWhile Char.isDigit
  if digits = [] then none else some (digits, text.dropWhile Char.isDigit)

/-- The integer part of a number, which has no leading zeros. -/
def readInteger : List Char → Option (List Char × List Char)
  | '0' :: rest => some (['0'], rest)
  | text => readDigits text

/-- The digits of a fraction, if there is one. -/
def readFraction : List Char → Option (List Char × List Char)
  | '.' :: rest => readDigits rest
  | text => some ([], text)

/-- The digits of an exponent with its sign. -/
def readSignedDigits : List Char → Option (ℤ × List Char)
  | '+' :: rest => (readDigits rest).map fun read => ((ofDigits read.1 : ℤ), read.2)
  | '-' :: rest => (readDigits rest).map fun read => (-(ofDigits read.1 : ℤ), read.2)
  | text => (readDigits text).map fun read => ((ofDigits read.1 : ℤ), read.2)

/-- An exponent, if there is one. -/
def readExponent : List Char → Option (ℤ × List Char)
  | 'e' :: rest => readSignedDigits rest
  | 'E' :: rest => readSignedDigits rest
  | text => some (0, text)

/-- A number without its sign. -/
def readMagnitude (text : List Char) : Option (ℚ × List Char) := do
  let (whole, rest) ← readInteger text
  let (fraction, rest) ← readFraction rest
  let (exponent, rest) ← readExponent rest
  return ((ofDigits (whole ++ fraction) : ℚ) * 10 ^ (exponent - fraction.length), rest)

/-- A number. -/
def readNumber : List Char → Option (ℚ × List Char)
  | '-' :: rest => (readMagnitude rest).map fun read => (-read.1, read.2)
  | text => readMagnitude text

/-- The value of a hexadecimal digit. -/
def hexValue? (c : Char) : Option ℕ :=
  if c.isDigit then some (c.toNat - 48)
  else if 'a'.toNat ≤ c.toNat ∧ c.toNat ≤ 'f'.toNat then some (c.toNat - 87)
  else if 'A'.toNat ≤ c.toNat ∧ c.toNat ≤ 'F'.toNat then some (c.toNat - 55)
  else none

/-- The code unit that four hexadecimal digits denote. -/
def readUnit (a b c d : Char) : Option UInt16 := do
  let a ← hexValue? a
  let b ← hexValue? b
  let c ← hexValue? c
  let d ← hexValue? d
  return UInt16.ofNat (((a * 16 + b) * 16 + c) * 16 + d)

/-- The code unit that an escaped character stands for. -/
def escaped? (c : Char) : Option UInt16 :=
  if c = '"' ∨ c = '\\' ∨ c = '/' then some (UInt16.ofNat c.toNat)
  else if c = 'b' then some 8
  else if c = 'f' then some 12
  else if c = 'n' then some 10
  else if c = 'r' then some 13
  else if c = 't' then some 9
  else none

/-- A string behind its opening quote. -/
def readString : List Char → Option (CodeUnits × List Char)
  | [] => none
  | c :: rest =>
    if c = '"' then some ([], rest)
    else if c = '\\' then
      match rest with
      | [] => none
      | e :: rest =>
        if e = 'u' then
          match rest with
          | x :: y :: z :: w :: rest => do
            let unit ← readUnit x y z w
            let (units, rest) ← readString rest
            return (unit :: units, rest)
          | _ => none
        else do
          let unit ← escaped? e
          let (units, rest) ← readString rest
          return (unit :: units, rest)
    else if c.toNat < 0x20 then none
    else do
      let (units, rest) ← readString rest
      return (unitsOfChar c ++ units, rest)

mutual

/-- A value, and the text behind it. -/
def readValue : ℕ → List Char → Option (Value × List Char)
  | 0, _ => none
  | fuel + 1, text =>
    match skipWhiteSpace text with
    | [] => none
    | c :: rest =>
      if c = '"' then (readString rest).map fun read => (.string read.1, read.2)
      else if c = '\x7b' then
        match expect '\x7d' rest with
        | some rest => some (.object [], rest)
        | none => (readMembers fuel rest).map fun read => (.object read.1, read.2)
      else if c = '[' then
        match expect ']' rest with
        | some rest => some (.array [], rest)
        | none => (readItems fuel rest).map fun read => (.array read.1, read.2)
      else if c = 't' then (expectWord ['r', 'u', 'e'] rest).map fun rest => (.bool true, rest)
      else if c = 'f' then
        (expectWord ['a', 'l', 's', 'e'] rest).map fun rest => (.bool false, rest)
      else if c = 'n' then (expectWord ['u', 'l', 'l'] rest).map fun rest => (.null, rest)
      else (readNumber (c :: rest)).map fun read => (.number read.1, read.2)

/-- The items of an array up to its end. -/
def readItems : ℕ → List Char → Option (List Value × List Char)
  | 0, _ => none
  | fuel + 1, text => do
    let (item, rest) ← readValue fuel text
    match expect ']' rest with
    | some rest => return ([item], rest)
    | none =>
      let rest ← expect ',' rest
      let (items, rest) ← readItems fuel rest
      return (item :: items, rest)

/-- The members of an object up to its end. -/
def readMembers : ℕ → List Char → Option (List (CodeUnits × Value) × List Char)
  | 0, _ => none
  | fuel + 1, text => do
    let rest ← expect '"' text
    let (name, rest) ← readString rest
    let rest ← expect ':' rest
    let (value, rest) ← readValue fuel rest
    match expect '\x7d' rest with
    | some rest => return ([(name, value)], rest)
    | none =>
      let rest ← expect ',' rest
      let (members, rest) ← readMembers fuel rest
      return ((name, value) :: members, rest)

end

/-- `JSON.parse(text)`, and `none` where it throws. -/
def parse (text : List Char) : Option Value := do
  let (value, rest) ← readValue (text.length + 1) text
  if skipWhiteSpace rest = [] then return value else none

/-! ## Writing -/

/-- A code unit as an escape of four hexadecimal digits. -/
def unicodeEscape (n : ℕ) : List Char :=
  ['\\', 'u', Nat.digitChar (n / 4096), Nat.digitChar (n / 256 % 16), Nat.digitChar (n / 16 % 16),
    Nat.digitChar (n % 16)]

/-- A code point as it stands in a quoted string. -/
def quoted : CodePoint → List Char
  | .surrogate unit => unicodeEscape unit.toNat
  | .scalar c =>
    if c.toNat = 8 then ['\\', 'b']
    else if c.toNat = 9 then ['\\', 't']
    else if c.toNat = 10 then ['\\', 'n']
    else if c.toNat = 12 then ['\\', 'f']
    else if c.toNat = 13 then ['\\', 'r']
    else if c = '"' then ['\\', '"']
    else if c = '\\' then ['\\', '\\']
    else if c.toNat < 0x20 then unicodeEscape c.toNat
    else [c]

/-- A string in quotes. -/
def quote (units : CodeUnits) : List Char :=
  '"' :: ((codePoints units).flatMap quoted ++ ['"'])

/-- `String(n)` of a natural number: its digits, and from `10 ^ 21` on a mantissa and an
exponent. -/
def naturalText (n : ℕ) : List Char :=
  let digits := Nat.toDigits 10 n
  if n < 10 ^ 21 then digits
  else
    let exponent := Nat.toDigits 10 (digits.length - 1)
    match digits.rdropWhile (· == '0') with
    | [] => digits
    | [first] => first :: 'e' :: '+' :: exponent
    | first :: others => first :: '.' :: (others ++ 'e' :: '+' :: exponent)

/-- `String(n)` of a whole number. -/
def wholeText (n : ℤ) : List Char :=
  if n < 0 then '-' :: naturalText n.natAbs else naturalText n.natAbs

/-- What the fields of the records hold. -/
inductive Field where
  | string (units : CodeUnits)
  | whole (n : ℤ)
  deriving DecidableEq

/-- The text of a field. -/
def Field.text : Field → List Char
  | .string units => quote units
  | .whole n => wholeText n

/-- The value that a field is read back as. -/
def Field.value : Field → Value
  | .string units => .string units
  | .whole n => .number n

/-- A field behind its name. -/
def memberText (member : String × Field) : List Char :=
  quote (unitsOf member.1) ++ ':' :: member.2.text

/-- `JSON.stringify(record)`. -/
def stringify (record : List (String × Field)) : List Char :=
  '\x7b' :: ([','].intercalate (record.map memberText) ++ ['\x7d'])

/-- A member as it is read back. -/
def memberValue (member : String × Field) : CodeUnits × Value :=
  (unitsOf member.1, member.2.value)

end Json

end Encoding
