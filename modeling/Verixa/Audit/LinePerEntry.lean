import Verixa.Audit.CsvExport

/-!
# One line per entry

A reader that splits lines may split at any of seven characters.  `toLogFields` escapes all of them
but the two separators of Unicode in what comes from outside, and none in the hashes; a row of JSON
has none below the space, and leaves the other three.  An entry is written as one line exactly when
its texts have none of what is left (`one_line_iff`), and then an export has as many lines as rows
(`countP_body`).
-/

namespace Verixa

open Encoding

/-! ## Line terminators -/

/-- LF, VT, FF, CR, NEL and the separators of lines and of paragraphs. -/
def isLineTerminator (c : Char) : Bool :=
  (decide (0x0a ≤ c.toNat) && decide (c.toNat ≤ 0x0d)) || isRawLineTerminator c

/-- The separators of lines and of paragraphs. -/
def isUnicodeSeparator (c : Char) : Bool := c.toNat == 0x2028 || c.toNat == 0x2029

theorem isLineTerminator_of_isPrintable (c : Char) (h : isPrintable c = true) :
    isLineTerminator c = false := by
  simp only [isPrintable, decide_eq_true_eq] at h
  simp only [isLineTerminator, isRawLineTerminator, Bool.or_eq_false_iff, Bool.and_eq_false_iff,
    decide_eq_false_iff_not, beq_eq_false_iff_ne, ne_eq]
  omega

/-- Escaping for text leaves the separators of Unicode. -/
theorem isUnicodeSeparator_eq (c : Char) :
    (!isTextUnsafe c && isLineTerminator c) = isUnicodeSeparator c := by
  rw [Bool.eq_iff_iff]
  simp only [isTextUnsafe, isLineTerminator, isRawLineTerminator, isUnicodeSeparator,
    Bool.and_eq_true, Bool.or_eq_true, Bool.not_eq_true', Bool.or_eq_false_iff, beq_iff_eq,
    decide_eq_true_eq, Bool.and_eq_false_iff, decide_eq_false_iff_not, beq_eq_false_iff_ne, ne_eq]
  constructor
  · rintro ⟨⟨⟨-, hcontrol⟩, hlatin⟩, hterminator⟩
    omega
  · intro hseparator
    refine ⟨⟨⟨?_, by omega⟩, by omega⟩, by omega⟩
    rintro rfl
    simp at hseparator

/-- JSON leaves the terminators that are no control characters of ASCII. -/
theorem isRawLineTerminator_eq (c : Char) :
    (decide (0x20 ≤ c.toNat) && isLineTerminator c) = isRawLineTerminator c := by
  rw [Bool.eq_iff_iff]
  simp only [isLineTerminator, isRawLineTerminator, Bool.and_eq_true, Bool.or_eq_true, beq_iff_eq,
    decide_eq_true_eq]
  omega

theorem not_occurs_separator_of_raw {text : String} (h : ¬ Occurs isRawLineTerminator text) :
    ¬ Occurs isUnicodeSeparator text := by
  rintro ⟨c, hc, hseparator⟩
  refine h ⟨c, hc, ?_⟩
  simp only [isUnicodeSeparator, isRawLineTerminator, Bool.or_eq_true, beq_iff_eq]
    at hseparator ⊢
  omega

/-! ## Entries -/

/-- No text that an entry is written as can be split into lines. -/
structure OneLine (entry : AuditLogEntry) : Prop where
  fields : ∀ field ∈ entry.toLogFields.cells, ¬ Occurs isLineTerminator field
  row : ¬ Occurs isLineTerminator (jsonlRow entry)

/-- The texts of an entry have none of the terminators that are left in them. -/
structure PlainTexts (entry : AuditLogEntry) : Prop where
  ids : ∀ text ∈ [entry.action, entry.actorId.getD "", entry.subjectId.getD ""],
    ¬ Occurs isRawLineTerminator text
  hashes : ∀ text ∈ [entry.previousHash, entry.hash], ¬ Occurs isLineTerminator text
  metadata : ∀ field ∈ entry.metadata.entries,
    ¬ Occurs isRawLineTerminator field.1 ∧ ¬ Occurs isRawLineTerminator field.2

/-- What a line of the log keeps of the metadata. -/
theorem not_occurs_metadata (record : StringRecord) :
    ¬ Occurs isLineTerminator (escapeJsonLineTerminators (jsonRecord record)) := by
  have hnone : ∀ text : String, ¬ Occurs
      (fun c => decide (0x20 ≤ c.toNat) && (!isRawLineTerminator c && isLineTerminator c))
        text := by
    rintro text ⟨c, -, hc⟩
    simp only [Bool.and_eq_true, Bool.not_eq_true', decide_eq_true_eq] at hc
    have hraw := isRawLineTerminator_eq c
    rw [hc.2.1, hc.2.2] at hraw
    simp [hc.1] at hraw
  rw [occurs_escapeJsonLineTerminators isLineTerminator_of_isPrintable, occurs_jsonRecord]
  · rintro ⟨field, -, hname | hvalue⟩
    · exact hnone _ hname
    · exact hnone _ hvalue
  · intro c hc
    rw [isLineTerminator_of_isPrintable c hc, Bool.and_false]

/-- What a line of the log keeps of an entry. -/
theorem fields_oneLine_iff (entry : AuditLogEntry) :
    (∀ field ∈ entry.toLogFields.cells, ¬ Occurs isLineTerminator field) ↔
      (∀ text ∈ [entry.action, entry.actorId.getD "", entry.subjectId.getD ""],
        ¬ Occurs isUnicodeSeparator text) ∧
      ∀ text ∈ [entry.previousHash, entry.hash], ¬ Occurs isLineTerminator text := by
  have hsequence := not_occurs_toString_int isLineTerminator_of_isPrintable entry.sequence
  have hdate := not_occurs_toISOString isLineTerminator_of_isPrintable entry.occurredAt
  simp only [LogFields.cells, AuditLogEntry.toLogFields, List.forall_mem_cons,
    occurs_escapeForText isLineTerminator_of_isPrintable, isUnicodeSeparator_eq]
  simp only [hsequence, hdate, not_occurs_metadata, List.not_mem_nil, false_implies, implies_true,
    not_false_eq_true, true_and, and_true]
  tauto

/-- What JSON keeps of a text. -/
theorem occurs_lineTerminator_jsonText (text : String) :
    Occurs isLineTerminator (jsonText text) ↔ Occurs isRawLineTerminator text := by
  rw [occurs_jsonText isLineTerminator_of_isPrintable]
  simp only [isRawLineTerminator_eq]

/-- What JSON keeps of a text that may be absent. -/
theorem occurs_lineTerminator_optional (text : Option String) :
    Occurs isLineTerminator ((text.map jsonText).getD "null") ↔
      Occurs isRawLineTerminator (text.getD "") := by
  cases text with
  | none =>
    have hnull : ¬ Occurs isLineTerminator "null" :=
      not_occurs_of_printable isLineTerminator_of_isPrintable (by simp [isPrintable])
    have hempty : ¬ Occurs isRawLineTerminator "" := by simp [Occurs]
    exact iff_of_false hnull hempty
  | some text => exact occurs_lineTerminator_jsonText text

/-- What a row of JSON keeps of an entry. -/
theorem row_oneLine_iff (entry : AuditLogEntry) :
    ¬ Occurs isLineTerminator (jsonlRow entry) ↔
      (∀ text ∈ [entry.action, entry.actorId.getD "", entry.subjectId.getD "", entry.previousHash,
        entry.hash], ¬ Occurs isRawLineTerminator text) ∧
      ∀ field ∈ entry.metadata.entries,
        ¬ Occurs isRawLineTerminator field.1 ∧ ¬ Occurs isRawLineTerminator field.2 := by
  have hsequence := not_occurs_toString_int isLineTerminator_of_isPrintable entry.sequence
  have hdate : ¬ Occurs isRawLineTerminator entry.occurredAt.toISOString := by
    refine not_occurs_toISOString (fun c hc => ?_) entry.occurredAt
    rw [← isRawLineTerminator_eq, isLineTerminator_of_isPrintable c hc, Bool.and_false]
  have hmetadata : Occurs isLineTerminator (jsonRecord entry.metadata) ↔
      ∃ field ∈ entry.metadata.entries,
        Occurs isRawLineTerminator field.1 ∨ Occurs isRawLineTerminator field.2 := by
    rw [occurs_jsonRecord isLineTerminator_of_isPrintable]
    simp only [isRawLineTerminator_eq]
  have hvalues : Occurs isLineTerminator (jsonlRow entry) ↔
      Occurs isRawLineTerminator entry.action ∨
        Occurs isRawLineTerminator (entry.actorId.getD "") ∨
        Occurs isRawLineTerminator (entry.subjectId.getD "") ∨
        Occurs isRawLineTerminator entry.previousHash ∨ Occurs isRawLineTerminator entry.hash ∨
        ∃ field ∈ entry.metadata.entries,
          Occurs isRawLineTerminator field.1 ∨ Occurs isRawLineTerminator field.2 := by
    rw [jsonlRow, occurs_jsonObject_of_names isLineTerminator_of_isPrintable]
    · simp only [List.map_cons, List.map_nil, List.mem_cons, List.not_mem_nil, or_false,
        exists_eq_or_imp, exists_eq_left, occurs_lineTerminator_jsonText,
        occurs_lineTerminator_optional, hsequence, hdate, hmetadata, false_or]
    · simp [isPrintable]
  rw [hvalues]
  simp only [not_or, List.forall_mem_cons, List.not_mem_nil, false_implies, implies_true, and_true,
    not_exists, not_and, and_assoc]

/-- An entry is written as one line exactly when nothing that splits it is left in its texts. -/
theorem oneLine_iff (entry : AuditLogEntry) : OneLine entry ↔ PlainTexts entry := by
  have hraw : ∀ {text : String}, ¬ Occurs isLineTerminator text →
      ¬ Occurs isRawLineTerminator text := by
    rintro text h ⟨c, hc, hp⟩
    exact h ⟨c, hc, by rw [isLineTerminator, hp, Bool.or_true]⟩
  constructor
  · intro h
    obtain ⟨-, hhashes⟩ := (fields_oneLine_iff entry).mp h.fields
    obtain ⟨htexts, hmetadata⟩ := (row_oneLine_iff entry).mp h.row
    refine ⟨fun text htext => htexts text ?_, hhashes, hmetadata⟩
    simp only [List.mem_cons, List.not_mem_nil, or_false] at htext ⊢
    tauto
  · intro h
    refine ⟨(fields_oneLine_iff entry).mpr ⟨fun text htext =>
      not_occurs_separator_of_raw (h.ids text htext), h.hashes⟩,
      (row_oneLine_iff entry).mpr ⟨fun text htext => ?_, h.metadata⟩⟩
    have hcases : text ∈ [entry.action, entry.actorId.getD "", entry.subjectId.getD ""] ∨
        text ∈ [entry.previousHash, entry.hash] := by
      simp only [List.mem_cons, List.not_mem_nil, or_false] at htext ⊢
      tauto
    rcases hcases with hid | hhash
    · exact h.ids text hid
    · exact hraw (h.hashes text hhash)

/-! ## Exports -/

/-- Rows of one line each have as many line terminators as there are rows. -/
theorem countP_join_rows {rows : List String} (h : ∀ row ∈ rows, ¬ Occurs isLineTerminator row) :
    (String.join (rows.map fun row => row ++ "\n")).toList.countP isLineTerminator =
      rows.length := by
  induction rows with
  | nil => simp
  | cons row rows ih =>
    have hrow : row.toList.countP isLineTerminator = 0 := by
      rw [List.countP_eq_zero]
      intro c hc hterminator
      exact h row List.mem_cons_self ⟨c, hc, hterminator⟩
    have hrest := ih fun other hother => h other (List.mem_cons_of_mem _ hother)
    rw [List.map_cons, String.join_cons, String.toList_append, String.toList_append,
      List.countP_append, List.countP_append, hrow, hrest]
    simp [isLineTerminator]
    omega

/-- The entries of an export are written as one line each exactly when their texts have none of the
terminators that are left in them, and then the export has as many lines as it has rows. -/
theorem one_line_iff (entries : List AuditLogEntry) (maxRecords : Option ℕ) :
    let exported := entries.take (maxRecords.getD DEFAULT_EXPORT_MAX_RECORDS)
    let result := encodeAuditExport entries .jsonl maxRecords
    ((∀ entry ∈ exported, OneLine entry) ↔ ∀ entry ∈ exported, PlainTexts entry) ∧
      ((∀ entry ∈ exported, PlainTexts entry) →
        result.body.toList.countP isLineTerminator = result.recordCount ∧
          result.recordCount = exported.length) := by
  refine ⟨forall₂_congr fun entry _ => oneLine_iff entry, fun hplain => ?_⟩
  simp only [encodeAuditExport, exportLoop_eq, List.nil_append, List.length_nil, Nat.sub_zero,
    List.length_map, and_true]
  rw [countP_join_rows, List.length_map]
  intro row hrow
  obtain ⟨entry, hentry, rfl⟩ := List.mem_map.mp hrow
  exact ((oneLine_iff entry).mpr (hplain entry hentry)).row

/-- An entry whose actor was supplied with a separator of lines. -/
def separatedActorEntry : AuditLogEntry :=
  { rawHashEntry with hash := "", actorId := some "a\u2028b" }

/-- The separator is left in both texts of the entry. -/
theorem separated_actor_two_lines :
    (∃ field ∈ separatedActorEntry.toLogFields.cells, Occurs isLineTerminator field) ∧
      Occurs isLineTerminator (jsonlRow separatedActorEntry) := by
  have hactor : separatedActorEntry.actorId.getD "" = "a\u2028b" := rfl
  constructor
  · by_contra hnone
    have hids := ((fields_oneLine_iff separatedActorEntry).mp fun field hfield hoccurs =>
      hnone ⟨field, hfield, hoccurs⟩).1
    exact hids "a\u2028b" (by simp [hactor]) ⟨'\u2028', by simp, by decide⟩
  · by_contra hnone
    have htexts := ((row_oneLine_iff separatedActorEntry).mp hnone).1
    exact htexts "a\u2028b" (by simp [hactor]) ⟨'\u2028', by simp, by decide⟩

end Verixa
