import Verixa.Audit.AuditExportEncoding
import Verixa.Encoding.Occurrence

/-!
# What can occur in an encoded text

Which characters a text keeps when it is escaped for a textual sink, written as JSON, or both: the
escapes themselves consist of printable ASCII.  `p` is any kind of characters outside it.
-/

namespace Verixa

open Encoding

section Spares

variable {p : Char → Bool} (hspares : ∀ c, isPrintable c = true → p c = false)
include hspares

theorem not_occurs_unicodeEscape (c : Char) : ¬ Occurs p (unicodeEscape c) := by
  rw [unicodeEscape, occurs_append, not_or]
  exact ⟨not_occurs_of_printable hspares (by simp [isPrintable]),
    not_occurs_hexadecimal hspares 4 c.toNat⟩

theorem not_occurs_escapeCharacter (c : Char) : ¬ Occurs p (escapeCharacter c) := by
  unfold escapeCharacter
  split
  · exact not_occurs_of_printable hspares (by simp [isPrintable])
  split
  · exact not_occurs_of_printable hspares (by simp [isPrintable])
  split
  · exact not_occurs_of_printable hspares (by simp [isPrintable])
  split
  · exact not_occurs_of_printable hspares (by simp [isPrintable])
  exact not_occurs_unicodeEscape hspares c

/-- What is escaped for text keeps what is not unsafe. -/
theorem occurs_escapeForText (value : String) :
    Occurs p (escapeForText value) ↔ Occurs (fun c => !isTextUnsafe c && p c) value := by
  refine occurs_join_map (fun c => ?_) value
  split
  · rename_i hunsafe
    simp [not_occurs_escapeCharacter hspares c, hunsafe]
  · rename_i hsafe
    simp [occurs_singleton, hsafe]

/-- What `JSON.stringify` keeps of a character. -/
theorem occurs_jsonCharacter (c : Char) :
    Occurs p (jsonCharacter c) ↔ (decide (0x20 ≤ c.toNat) && p c) = true := by
  have hescape : ∀ text : String, (∀ d ∈ text.toList, isPrintable d = true) →
      (0x20 ≤ c.toNat → p c = false) →
        (Occurs p text ↔ (decide (0x20 ≤ c.toNat) && p c) = true) := by
    intro text htext hc
    refine iff_of_false (not_occurs_of_printable hspares htext) fun hboth => ?_
    simp only [Bool.and_eq_true, decide_eq_true_eq] at hboth
    rw [hc hboth.1] at hboth
    exact Bool.noConfusion hboth.2
  unfold jsonCharacter
  split
  · rename_i hc
    exact hescape _ (by simp [isPrintable]) fun _ => hspares c (by rw [hc]; decide)
  split
  · rename_i hc
    exact hescape _ (by simp [isPrintable]) fun _ => hspares c (by rw [hc]; decide)
  split
  · exact hescape _ (by simp [isPrintable]) fun hc => by omega
  split
  · exact hescape _ (by simp [isPrintable]) fun hc => by omega
  split
  · rename_i hc
    exact hescape _ (by simp [isPrintable]) fun hlarge => by simp [hc] at hlarge
  split
  · rename_i hc
    exact hescape _ (by simp [isPrintable]) fun hlarge => by simp [hc] at hlarge
  split
  · rename_i hc
    exact hescape _ (by simp [isPrintable]) fun hlarge => by simp [hc] at hlarge
  split
  · rename_i hsmall
    simp only [not_occurs_unicodeEscape hspares c, false_iff, Bool.and_eq_true, decide_eq_true_eq,
      not_and]
    intro hlarge
    omega
  · rename_i hlarge
    simp [occurs_singleton, Nat.not_lt.mp hlarge]

theorem not_occurs_quote : ¬ Occurs p "\"" :=
  not_occurs_of_printable hspares (by simp [isPrintable])

/-- What `JSON.stringify` keeps of a text. -/
theorem occurs_jsonText (text : String) :
    Occurs p (jsonText text) ↔ Occurs (fun c => decide (0x20 ≤ c.toNat) && p c) text := by
  rw [jsonText, occurs_append, occurs_append,
    occurs_join_map (occurs_jsonCharacter hspares) text]
  simp [not_occurs_quote hspares]

/-- What occurs in an object occurs in a name or in a value. -/
theorem occurs_jsonObject (fields : List (String × String)) :
    Occurs p (jsonObject fields) ↔
      ∃ field ∈ fields, Occurs p (jsonText field.1) ∨ Occurs p field.2 := by
  have hmark : ∀ mark ∈ ["\x7b", "\x7d", ",", ":"], ¬ Occurs p mark := by
    intro mark hmark
    refine not_occurs_of_printable hspares ?_
    simp only [List.mem_cons, List.not_mem_nil, or_false] at hmark
    rcases hmark with rfl | rfl | rfl | rfl <;> simp [isPrintable]
  rw [jsonObject, occurs_append, occurs_append, occurs_intercalate (hmark "," (by simp))]
  simp [hmark, occurs_append]

/-- What occurs in an object with plain names occurs in a value. -/
theorem occurs_jsonObject_of_names {fields : List (String × String)}
    (hnames : ∀ name ∈ fields.map Prod.fst, ∀ c ∈ name.toList, isPrintable c = true) :
    Occurs p (jsonObject fields) ↔ ∃ value ∈ fields.map Prod.snd, Occurs p value := by
  have hplain : ∀ field ∈ fields, ¬ Occurs p (jsonText field.1) := by
    rintro field hfield hoccurs
    obtain ⟨c, hc, hp⟩ := (occurs_jsonText hspares field.1).mp hoccurs
    have hprintable := hnames field.1 (List.mem_map_of_mem hfield) c hc
    simp [hspares c hprintable] at hp
  rw [occurs_jsonObject hspares]
  constructor
  · rintro ⟨field, hfield, hname | hvalue⟩
    · exact absurd hname (hplain field hfield)
    · exact ⟨field.2, List.mem_map_of_mem hfield, hvalue⟩
  · rintro ⟨value, hvalue, hoccurs⟩
    obtain ⟨field, hfield, rfl⟩ := List.mem_map.mp hvalue
    exact ⟨field, hfield, .inr hoccurs⟩

/-- What `JSON.stringify` keeps of a record. -/
theorem occurs_jsonRecord (record : StringRecord) :
    Occurs p (jsonRecord record) ↔ ∃ field ∈ record.entries,
      Occurs (fun c => decide (0x20 ≤ c.toNat) && p c) field.1 ∨
        Occurs (fun c => decide (0x20 ≤ c.toNat) && p c) field.2 := by
  rw [jsonRecord, occurs_jsonObject hspares]
  simp [occurs_jsonText hspares]

/-- What is kept when the line terminators that JSON leaves are escaped. -/
theorem occurs_escapeJsonLineTerminators (value : String) :
    Occurs p (escapeJsonLineTerminators value) ↔
      Occurs (fun c => !isRawLineTerminator c && p c) value := by
  refine occurs_join_map (fun c => ?_) value
  split
  · rename_i hraw
    simp [not_occurs_unicodeEscape hspares c, hraw]
  · rename_i hplain
    simp [occurs_singleton, hplain]

/-- Nothing outside printable ASCII occurs in a date. -/
theorem not_occurs_toISOString (date : Date) : ¬ Occurs p date.toISOString := by
  have hmark : ∀ mark ∈ ["-", "+", "T", ":", ".", "Z"], ¬ Occurs p mark := by
    intro mark hmark
    refine not_occurs_of_printable hspares ?_
    simp only [List.mem_cons, List.not_mem_nil, or_false] at hmark
    rcases hmark with rfl | rfl | rfl | rfl | rfl | rfl <;> simp [isPrintable]
  have hyear : ∀ y, ¬ Occurs p (yearText y) := by
    intro y
    unfold yearText
    split
    · exact not_occurs_padded hspares _ _
    split
    · simp [occurs_append, hmark, not_occurs_padded hspares]
    · simp [occurs_append, hmark, not_occurs_padded hspares]
  unfold Date.toISOString IsoFields.text
  simp only [occurs_append, not_or, hyear, not_occurs_padded hspares, hmark, List.mem_cons,
    true_or, or_true, not_false_eq_true, and_self]

end Spares

end Verixa
