import Verixa.Audit.AuditMetadata
import Verixa.Encoding.Json

/-!
# Escaped text can be read back

`escapeForText` over any string, lone surrogates included.  A backslash stands in the escaped text
only where an escape begins, and the character behind it tells how long the escape is.  So the text
that was escaped is read back (`unescape_escapeForText`), different texts have different escapes,
and the fields of different metadata keys stay apart in `toLogFields` (`escapeForText_one_to_one`).
-/

namespace Verixa

open Encoding

namespace UnitText

/-! ## Escaping and reading back -/

/-- The code unit of a character that a textual sink reads as structure.  None of them is a
surrogate, so that looking at code points, as the pattern does, comes to the same. -/
def isTextUnsafe (unit : UInt16) : Bool :=
  unit == 0x5c || unit.toNat ≤ 0x1f || (0x7f ≤ unit.toNat && unit.toNat ≤ 0x9f)

/-- What a code unit becomes. -/
def escapeUnit (unit : UInt16) : CodeUnits :=
  if isTextUnsafe unit then unitsOf (escapeCharacter (Char.ofNat unit.toNat)) else [unit]

/-- `escapeForText(value)`. -/
def escapeForText (value : CodeUnits) : CodeUnits := value.flatMap escapeUnit

/-- The code unit that four hexadecimal digits denote. -/
def unitOfDigits (a b c d : UInt16) : UInt16 :=
  (Json.readUnit (Char.ofNat a.toNat) (Char.ofNat b.toNat) (Char.ofNat c.toNat)
    (Char.ofNat d.toNat)).getD 0

/-- The code unit whose escape is a backslash and a letter. -/
def unitOfLetter (letter : UInt16) : UInt16 :=
  if letter = 0x6e then 0x0a
  else if letter = 0x72 then 0x0d
  else if letter = 0x74 then 0x09
  else letter

/-- Reads escaped text back. -/
def unescape : CodeUnits → CodeUnits
  | [] => []
  | unit :: units =>
    if unit = 0x5c then
      match units with
      | 0x75 :: a :: b :: c :: d :: rest => unitOfDigits a b c d :: unescape rest
      | letter :: rest => unitOfLetter letter :: unescape rest
      | [] => []
    else unit :: unescape units

/-- How the escape of a code unit is read: by its second unit, or by its last four. -/
def Reads (escape : CodeUnits) (unit : UInt16) : Prop :=
  match escape with
  | [0x5c, letter] => letter ≠ 0x75 ∧ unitOfLetter letter = unit
  | [0x5c, 0x75, a, b, c, d] => unitOfDigits a b c d = unit
  | _ => False

instance (escape : CodeUnits) (unit : UInt16) : Decidable (Reads escape unit) := by
  unfold Reads
  split <;> infer_instance

theorem reads_escapeUnit_ofNat : ∀ n < 0xa0, isTextUnsafe (UInt16.ofNat n) = true →
    Reads (escapeUnit (UInt16.ofNat n)) (UInt16.ofNat n) := by
  decide +kernel

/-- An escape is read as what it stands for. -/
theorem reads_escapeUnit {unit : UInt16} (h : isTextUnsafe unit = true) :
    Reads (escapeUnit unit) unit := by
  have hsmall : unit.toNat < 0xa0 := by
    simp only [isTextUnsafe, Bool.or_eq_true, Bool.and_eq_true, decide_eq_true_eq,
      beq_iff_eq] at h
    rcases h with (rfl | h) | h
    · decide
    · omega
    · omega
  have hunit : UInt16.ofNat unit.toNat = unit := UInt16.ofNat_toNat
  have hreads := reads_escapeUnit_ofNat unit.toNat hsmall
  rw [hunit] at hreads
  exact hreads h

/-- What is read behind an escape. -/
theorem unescape_of_reads {escape : CodeUnits} {unit : UInt16} (h : Reads escape unit)
    (rest : CodeUnits) : unescape (escape ++ rest) = unit :: unescape rest := by
  unfold Reads at h
  split at h
  · rename_i letter
    obtain ⟨hletter, rfl⟩ := h
    rw [List.cons_append, List.cons_append, List.nil_append, unescape.eq_def]
    dsimp only
    rw [if_pos rfl]
    split
    · rename_i heq
      exact absurd (List.cons.inj heq).1 hletter
    · rename_i heq
      obtain ⟨rfl, rfl⟩ := List.cons.inj heq
      rfl
    · rename_i heq
      exact nomatch heq
  · rename_i a b c d
    rw [← h]
    rfl
  · exact h.elim

/-- A code unit that is safe stays. -/
theorem escapeUnit_of_safe {unit : UInt16} (h : isTextUnsafe unit = false) :
    escapeUnit unit = [unit] := by
  rw [escapeUnit, h, if_neg (by decide)]

/-- The first unit is read back from the front of any text. -/
theorem unescape_escapeUnit_append (unit : UInt16) (rest : CodeUnits) :
    unescape (escapeUnit unit ++ rest) = unit :: unescape rest := by
  cases hunsafe : isTextUnsafe unit with
  | true => exact unescape_of_reads (reads_escapeUnit hunsafe) rest
  | false =>
    have hslash : unit ≠ 0x5c := by
      rintro rfl
      exact absurd hunsafe (by decide)
    rw [escapeUnit_of_safe hunsafe, List.singleton_append, unescape.eq_def]
    exact if_neg hslash

/-- Escaped text is read back. -/
theorem unescape_escapeForText (value : CodeUnits) : unescape (escapeForText value) = value := by
  induction value with
  | nil => rfl
  | cons unit value ih =>
    rw [escapeForText, List.flatMap_cons, unescape_escapeUnit_append]
    exact congrArg (unit :: ·) ih

theorem escapeForText_injective : Function.Injective escapeForText := by
  intro a b h
  rw [← unescape_escapeForText a, h, unescape_escapeForText]

/-! ## Well-formed texts -/

/-- A surrogate is safe. -/
theorem isTextUnsafe_of_le {unit : UInt16} (h : 0xa0 ≤ unit.toNat) : isTextUnsafe unit = false := by
  have hslash : (unit == 0x5c) = false := by
    rw [beq_eq_false_iff_ne]
    rintro rfl
    exact absurd h (by decide)
  rw [isTextUnsafe, hslash, decide_eq_false (by omega), decide_eq_false (p := unit.toNat ≤ 0x9f)
    (by omega), Bool.and_false]
  rfl

/-- The units of a character become those of its escape. -/
theorem flatMap_escapeUnit_unitsOfChar (c : Char) :
    (unitsOfChar c).flatMap escapeUnit =
      unitsOf (if Verixa.isTextUnsafe c then escapeCharacter c else String.singleton c) := by
  have hsingleton : unitsOf (String.singleton c) = unitsOfChar c := by
    rw [unitsOf, String.toList_singleton, List.flatMap_singleton]
  by_cases hplane : c.toNat < 0x10000
  · have hunits : unitsOfChar c = [UInt16.ofNat c.toNat] := by
      rw [unitsOfChar, utf16OfChar, if_pos hplane, List.map_singleton]
    have hvalue : (UInt16.ofNat c.toNat).toNat = c.toNat := by
      rw [UInt16.toNat_ofNat', Nat.mod_eq_of_lt hplane]
    have hunsafe : isTextUnsafe (UInt16.ofNat c.toNat) = Verixa.isTextUnsafe c := by
      have hslash : (UInt16.ofNat c.toNat == 0x5c) = (c == '\\') := by
        rw [Bool.eq_iff_iff, beq_iff_eq, beq_iff_eq, ← UInt16.toNat_inj, hvalue]
        exact Char.toNat_inj (d := '\\')
      rw [isTextUnsafe, Verixa.isTextUnsafe, hslash, hvalue]
    rw [hunits, List.flatMap_singleton, escapeUnit, hunsafe, hvalue, Char.ofNat_toNat]
    split
    · rfl
    · rw [hsingleton, hunits]
  · have hsafe : Verixa.isTextUnsafe c = false := by
      have hslash : (c == '\\') = false := by
        rw [beq_eq_false_iff_ne]
        rintro rfl
        exact hplane (by decide)
      rw [Verixa.isTextUnsafe, hslash, decide_eq_false (by omega),
        decide_eq_false (p := c.toNat ≤ 0x9f) (by omega), Bool.and_false]
      rfl
    have hlarge := toNat_lt c
    have hhigh : (UInt16.ofNat (0xd800 + (c.toNat - 0x10000) / 0x400)).toNat =
        0xd800 + (c.toNat - 0x10000) / 0x400 := by
      rw [UInt16.toNat_ofNat', Nat.mod_eq_of_lt (by omega)]
    have hlow : (UInt16.ofNat (0xdc00 + (c.toNat - 0x10000) % 0x400)).toNat =
        0xdc00 + (c.toNat - 0x10000) % 0x400 := by
      rw [UInt16.toNat_ofNat', Nat.mod_eq_of_lt (by omega)]
    rw [hsafe, if_neg (by decide), hsingleton, unitsOfChar, utf16OfChar, if_neg hplane]
    simp only [List.map_cons, List.map_nil, List.flatMap_cons, List.flatMap_nil, List.append_nil]
    rw [escapeUnit_of_safe (isTextUnsafe_of_le (by omega)),
      escapeUnit_of_safe (isTextUnsafe_of_le (by omega))]
    rfl

/-- On a well-formed text it is the function on texts. -/
theorem unitsOf_escapeForText (text : String) :
    unitsOf (Verixa.escapeForText text) = escapeForText (unitsOf text) := by
  rw [Verixa.escapeForText, unitsOf, String.toList_join, unitsOf, escapeForText]
  simp only [List.flatMap_assoc, flatMap_escapeUnit_unitsOfChar, List.flatMap_map]
  rfl

/-! ## Log fields -/

/-- `metadata.toLogFields()`, from the values of the bag. -/
def toLogFields (values : OrderedMap CodeUnits CodeUnits) : OrderedMap CodeUnits CodeUnits :=
  values.entries.foldl (fun fields entry =>
    fields.set (escapeForText entry.1) (escapeForText entry.2)) OrderedMap.empty

/-- The fields that are added keep the keys apart; by induction on the entries that are left. -/
theorem entries_foldl_set (entries : List (CodeUnits × CodeUnits))
    (fields : OrderedMap CodeUnits CodeUnits) (hnodup : (entries.map Prod.fst).Nodup)
    (hfresh : ∀ entry ∈ entries, escapeForText entry.1 ∉ fields.keys) :
    (entries.foldl (fun fields entry =>
      fields.set (escapeForText entry.1) (escapeForText entry.2)) fields).entries =
        fields.entries ++ entries.map fun entry => (escapeForText entry.1, escapeForText entry.2) := by
  induction entries generalizing fields with
  | nil => simp
  | cons entry entries ih =>
    obtain ⟨hentry, hentries⟩ := List.nodup_cons.mp hnodup
    have hset : (fields.set (escapeForText entry.1) (escapeForText entry.2)).entries =
        fields.entries ++ [(escapeForText entry.1, escapeForText entry.2)] :=
      OrderedMap.upsertEntry_of_not_mem (hfresh entry List.mem_cons_self)
    rw [List.foldl_cons, ih _ hentries, hset, List.append_assoc]
    · rfl
    · intro other hother
      rw [OrderedMap.keys, hset, List.map_append, List.mem_append, not_or]
      refine ⟨hfresh other (List.mem_cons_of_mem entry hother), ?_⟩
      intro hsame
      have hkeys : other.1 = entry.1 := escapeForText_injective (List.mem_singleton.mp hsame)
      exact hentry (hkeys ▸ List.mem_map_of_mem hother)

/-- Every entry has a field of its own. -/
theorem entries_toLogFields (values : OrderedMap CodeUnits CodeUnits) :
    (toLogFields values).entries =
      values.entries.map fun entry => (escapeForText entry.1, escapeForText entry.2) :=
  entries_foldl_set values.entries OrderedMap.empty values.nodup fun _ _ => List.not_mem_nil

/-- `escapeForText` is one-to-one, escaped text is read back, and every entry of a bag of metadata
has a field of its own in `toLogFields`. -/
theorem escapeForText_one_to_one :
    Function.Injective escapeForText ∧
      (∀ value, unescape (escapeForText value) = value) ∧
      (∀ text, unitsOf (Verixa.escapeForText text) = escapeForText (unitsOf text)) ∧
      ∀ values, (toLogFields values).entries =
        values.entries.map fun entry => (escapeForText entry.1, escapeForText entry.2) :=
  ⟨escapeForText_injective, unescape_escapeForText, unitsOf_escapeForText, entries_toLogFields⟩

end UnitText

end Verixa
