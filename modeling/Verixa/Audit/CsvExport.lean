import Verixa.Audit.EscapedText
import Verixa.Audit.ChainIntegrity

/-!
# Reading an export

Read by the rules of the format, an export of comma-separated values is its header and one record
for each of the first `maxRecords` entries, and the cells are the fields of `toLogFields` up to an
apostrophe (`csv_export`).  None begins like a formula.  The fields that come from outside cannot
hold a line break, since `toLogFields` escapes it; the two hashes are written as they are, so that a
cell is free of line breaks, and the two encoders of a row agree, as far as the hashes are digests.
-/

namespace Verixa

open Encoding

/-! ## Cells -/

/-- The characters that end a line or move to the next cell. -/
def isBreaking (c : Char) : Bool := c == '\t' || c == '\r' || c == '\n'

/-- The text has no such character. -/
def Unbroken (text : String) : Prop := ∀ c ∈ text.toList, isBreaking c = false

theorem unbroken_of_not_occurs {text : String} (h : ¬ Occurs isBreaking text) : Unbroken text :=
  not_occurs_iff.mp h

/-- No printable character of ASCII is one of them. -/
theorem isBreaking_of_isPrintable (c : Char) (h : isPrintable c = true) : isBreaking c = false := by
  by_contra hbreaking
  simp only [isBreaking, Bool.not_eq_false, Bool.or_eq_true, beq_iff_eq] at hbreaking
  rcases hbreaking with (rfl | rfl) | rfl
  · simp [isPrintable] at h
  · simp [isPrintable] at h
  · simp [isPrintable] at h

/-- The characters are control characters. -/
theorem toNat_of_isBreaking {c : Char} (h : isBreaking c = true) : c.toNat ≤ 0x1f := by
  simp only [isBreaking, Bool.or_eq_true, beq_iff_eq] at h
  rcases h with (rfl | rfl) | rfl
  · decide
  · decide
  · decide

/-- What is escaped for text has no line break. -/
theorem unbroken_escapeForText (value : String) : Unbroken (escapeForText value) := by
  refine unbroken_of_not_occurs ?_
  rw [occurs_escapeForText isBreaking_of_isPrintable]
  rintro ⟨c, -, hc⟩
  simp only [Bool.and_eq_true, Bool.not_eq_true'] at hc
  have hsmall := toNat_of_isBreaking hc.2
  simp [isTextUnsafe, hsmall] at hc

/-- A record that `JSON.stringify` writes has no line break, also with its other line terminators
escaped. -/
theorem unbroken_metadata (record : StringRecord) :
    Unbroken (escapeJsonLineTerminators (jsonRecord record)) := by
  have hnone : ∀ text : String,
      ¬ Occurs (fun c => decide (0x20 ≤ c.toNat) && (!isRawLineTerminator c && isBreaking c))
        text := by
    rintro text ⟨c, -, hc⟩
    simp only [Bool.and_eq_true, decide_eq_true_eq] at hc
    have hsmall := toNat_of_isBreaking hc.2.2
    omega
  refine unbroken_of_not_occurs ?_
  rw [occurs_escapeJsonLineTerminators isBreaking_of_isPrintable, occurs_jsonRecord]
  · rintro ⟨field, -, hname | hvalue⟩
    · exact hnone _ hname
    · exact hnone _ hvalue
  · intro c hc
    rw [isBreaking_of_isPrintable c hc, Bool.and_false]

/-! ## Formulas -/

/-- A neutralized value begins like no formula. -/
theorem isFormulaPrefix_neutralizeFormulaPrefix {value : String} {c : Char}
    (hc : (neutralizeFormulaPrefix value).toList.head? = some c) : isFormulaPrefix c = false := by
  unfold neutralizeFormulaPrefix at hc
  split at hc
  · rw [String.toList_append] at hc
    obtain rfl : '\'' = c := by simpa using hc
    decide
  · rename_i hnone
    simpa [hc] using hnone

/-- An apostrophe is all that is put before a value. -/
theorem toList_neutralizeFormulaPrefix (value : String) :
    (neutralizeFormulaPrefix value).toList = value.toList ∨
      (neutralizeFormulaPrefix value).toList = '\'' :: value.toList := by
  unfold neutralizeFormulaPrefix
  split
  · exact .inr (by simp)
  · exact .inl rfl

/-! ## Rows -/

/-- A quoted value is a cell of the format. -/
theorem toList_quoteCell (value : String) : (quoteCell value).toList = Csv.cell value.toList := by
  have hpieces : (value.toList.map fun c =>
      if c = '"' then "\"\"" else String.singleton c).flatMap String.toList =
        Csv.doubleQuotes value.toList := by
    rw [Csv.doubleQuotes, List.flatMap_map]
    congr 1
    funext c
    split
    · simp
    · simp
  unfold quoteCell Csv.cell
  split
  · rw [String.toList_append, String.toList_append, String.toList_join, hpieces]
    simp
  · rfl

/-- Cells between commas are a record of the format. -/
theorem toList_intercalate_quoteCell (values : List String) :
    (String.intercalate "," (values.map quoteCell)).toList =
      Csv.record (values.map String.toList) := by
  rw [String.toList_intercalate, Csv.record, List.map_map, List.map_map]
  congr 1
  exact List.map_congr_left fun value _ => toList_quoteCell value

/-- The cells of an entry's row. -/
def AuditLogEntry.exportedCells (entry : AuditLogEntry) : List (List Char) :=
  (entry.toLogFields.cells.map neutralizeFormulaPrefix).map String.toList

theorem toList_csvRow (entry : AuditLogEntry) :
    (csvRow entry).toList = Csv.record entry.exportedCells := by
  have hcells : entry.toLogFields.cells.map csvCell =
      (entry.toLogFields.cells.map neutralizeFormulaPrefix).map quoteCell := by
    rw [List.map_map]
    rfl
  rw [csvRow, hcells, toList_intercalate_quoteCell]
  rfl

theorem toList_entryToCsvRow (entry : AuditLogEntry) :
    (entryToCsvRow entry).toList =
      Csv.record ((entry.toLogFields.cells.map markForRoute).map String.toList) := by
  have hcells : entry.toLogFields.cells.map escapeCsvCell =
      (entry.toLogFields.cells.map markForRoute).map quoteCell := by
    rw [List.map_map]
    rfl
  rw [entryToCsvRow, hcells, toList_intercalate_quoteCell]

/-- The cells of the header. -/
def headerCells : List (List Char) :=
  ["sequence", "action", "actor_id", "subject_id", "occurred_at", "previous_hash", "hash",
    "metadata"].map String.toList

theorem toList_header : AUDIT_EXPORT_HEADER.toList = Csv.record headerCells := by
  simp [AUDIT_EXPORT_HEADER, headerCells, Csv.record, Csv.cell, Csv.isSpecial, List.intercalate]

/-! ## The export -/

/-- The loop writes a row for each entry up to the cap. -/
theorem exportLoop_eq (row : AuditLogEntry → String) (maxRecords : ℕ)
    (entries : List AuditLogEntry) (rows : List String) :
    exportLoop row maxRecords entries rows =
      (rows ++ (entries.take (maxRecords - rows.length)).map row,
        decide (maxRecords - rows.length < entries.length)) := by
  induction entries generalizing rows with
  | nil => simp [exportLoop]
  | cons entry entries ih =>
    rw [exportLoop]
    split
    · rename_i hfull
      simp [Nat.sub_eq_zero_of_le hfull]
    · rename_i hroom
      obtain ⟨k, hk⟩ : ∃ k, maxRecords - rows.length = k + 1 :=
        ⟨maxRecords - rows.length - 1, by omega⟩
      have hnext : maxRecords - (rows ++ [row entry]).length = k := by
        rw [List.length_append, List.length_singleton]
        omega
      rw [ih, hnext, hk]
      simp

/-- The rows with their line breaks are a file of the format. -/
theorem toList_join_rows (entries : List AuditLogEntry) :
    (String.join ((entries.map csvRow).map fun row => row ++ "\r\n")).toList =
      Csv.file (entries.map AuditLogEntry.exportedCells) := by
  have hrow : ∀ entry, (csvRow entry ++ "\r\n").toList =
      Csv.record entry.exportedCells ++ Csv.lineBreak := by
    intro entry
    rw [String.toList_append, toList_csvRow]
    rfl
  induction entries with
  | nil => rfl
  | cons entry entries ih =>
    rw [List.map_cons, List.map_cons, String.join_cons, String.toList_append, ih, hrow,
      List.map_cons]
    rfl

/-- An export is the file of its header and the rows of the first entries. -/
theorem toList_body (entries : List AuditLogEntry) (maxRecords : Option ℕ) :
    (encodeAuditExport entries .csv maxRecords).body.toList =
      Csv.file (headerCells :: (entries.take (maxRecords.getD DEFAULT_EXPORT_MAX_RECORDS)).map
        AuditLogEntry.exportedCells) := by
  simp only [encodeAuditExport, exportLoop_eq]
  rw [String.toList_append, String.toList_append, toList_header, List.nil_append,
    toList_join_rows]
  simp [Csv.file, Csv.lineBreak]

/-! ## What is read -/

/-- A text that begins with neither a tab nor a carriage return. -/
def BeginsPlain (text : String) : Prop := ∀ c, text.toList.head? = some c → c ≠ '\t' ∧ c ≠ '\r'

/-- A record that was written for an entry.  The hashes are written as they are: no other field
can bring in a line break. -/
structure IsRecordOf (entry : AuditLogEntry) (cells : List (List Char)) : Prop where
  /-- There are as many cells as in the header. -/
  width : cells.length = headerCells.length
  /-- A cell is its field, or its field behind an apostrophe. -/
  fields : List.Forall₂ (fun cell field => cell = field.toList ∨ cell = '\'' :: field.toList)
    cells entry.toLogFields.cells
  /-- No cell begins like a formula. -/
  inert : ∀ cell ∈ cells, ∀ c, cell.head? = some c → isFormulaPrefix c = false
  /-- No cell has a line break unless a hash has one. -/
  oneLine : (∀ c ∈ entry.previousHash.toList ++ entry.hash.toList, c ≠ '\r' ∧ c ≠ '\n') →
    ∀ cell ∈ cells, ∀ c ∈ cell, c ≠ '\r' ∧ c ≠ '\n'

theorem ne_of_isBreaking {c : Char} (h : isBreaking c = false) :
    c ≠ '\t' ∧ c ≠ '\r' ∧ c ≠ '\n' := by
  simpa [isBreaking, and_assoc] using h

/-- A field is a hash, or it has no line break. -/
theorem unbroken_of_mem_cells {entry : AuditLogEntry} {field : String}
    (h : field ∈ entry.toLogFields.cells) :
    field = entry.previousHash ∨ field = entry.hash ∨ Unbroken field := by
  simp only [LogFields.cells, AuditLogEntry.toLogFields, List.mem_cons, List.not_mem_nil,
    or_false] at h
  have hplain : ∀ {text : String}, ¬ Occurs isBreaking text → Unbroken text :=
    unbroken_of_not_occurs
  rcases h with rfl | rfl | rfl | rfl | rfl | rfl | rfl | rfl
  · exact .inr (.inr (hplain (not_occurs_toString_int isBreaking_of_isPrintable _)))
  · exact .inr (.inr (unbroken_escapeForText _))
  · exact .inr (.inr (unbroken_escapeForText _))
  · exact .inr (.inr (unbroken_escapeForText _))
  · exact .inr (.inr (hplain (not_occurs_toISOString isBreaking_of_isPrintable _)))
  · exact .inl rfl
  · exact .inr (.inl rfl)
  · exact .inr (.inr (unbroken_metadata _))

/-- The cells of a row are a record for its entry. -/
theorem isRecordOf_exportedCells (entry : AuditLogEntry) :
    IsRecordOf entry entry.exportedCells where
  width := by simp [AuditLogEntry.exportedCells, LogFields.cells, headerCells]
  fields := by
    rw [AuditLogEntry.exportedCells, List.map_map, List.forall₂_map_left_iff]
    exact List.forall₂_same.mpr fun field _ => toList_neutralizeFormulaPrefix field
  inert := by
    intro cell hcell c hc
    rw [AuditLogEntry.exportedCells, List.map_map] at hcell
    obtain ⟨field, -, rfl⟩ := List.mem_map.mp hcell
    exact isFormulaPrefix_neutralizeFormulaPrefix hc
  oneLine := by
    intro hhash cell hcell c hc
    rw [AuditLogEntry.exportedCells, List.map_map] at hcell
    obtain ⟨field, hfield, rfl⟩ := List.mem_map.mp hcell
    have hplain : ∀ d ∈ field.toList, d ≠ '\r' ∧ d ≠ '\n' := by
      intro d hd
      rcases unbroken_of_mem_cells hfield with rfl | rfl | hunbroken
      · exact hhash d (List.mem_append_left _ hd)
      · exact hhash d (List.mem_append_right _ hd)
      · exact (ne_of_isBreaking (hunbroken d hd)).2
    rcases toList_neutralizeFormulaPrefix field with htext | htext
    · exact hplain c (htext ▸ hc)
    · rw [Function.comp_apply, htext, List.mem_cons] at hc
      rcases hc with rfl | hc
      · decide
      · exact hplain c hc

/-- The two encoders of a cell differ on what begins with a tab or a carriage return. -/
theorem escapeCsvCell_eq {value : String} (h : BeginsPlain value) :
    escapeCsvCell value = csvCell value := by
  have hprefix : (value.toList.head?.any fun c => c == '+' || c == '=' || c == '@' || c == '-') =
      value.toList.head?.any isFormulaPrefix := by
    cases hc : value.toList.head? with
    | none => rfl
    | some c =>
      obtain ⟨htab, hreturn⟩ := h c hc
      simp only [Option.any_some, isFormulaPrefix, beq_eq_false_iff_ne.mpr htab,
        beq_eq_false_iff_ne.mpr hreturn, Bool.or_false]
      cases c == '+' <;> cases c == '=' <;> cases c == '@' <;> cases c == '-' <;> rfl
  rw [escapeCsvCell, csvCell, markForRoute, neutralizeFormulaPrefix, hprefix]

/-- Only a hash can begin with a tab or a carriage return. -/
theorem entryToCsvRow_eq {entry : AuditLogEntry} (hprevious : BeginsPlain entry.previousHash)
    (hhash : BeginsPlain entry.hash) : entryToCsvRow entry = csvRow entry := by
  have hcells : ∀ field ∈ entry.toLogFields.cells, escapeCsvCell field = csvCell field := by
    intro field hfield
    rcases unbroken_of_mem_cells hfield with rfl | rfl | hunbroken
    · exact escapeCsvCell_eq hprevious
    · exact escapeCsvCell_eq hhash
    · refine escapeCsvCell_eq fun c hc => ?_
      obtain ⟨htab, hreturn, -⟩ := ne_of_isBreaking (hunbroken c (List.mem_of_mem_head? hc))
      exact ⟨htab, hreturn⟩
  rw [entryToCsvRow, csvRow, List.map_congr_left hcells]

/-- An export is read as its header and a record for each of the entries. -/
theorem read_body (entries : List AuditLogEntry) (maxRecords : Option ℕ) :
    Csv.read (encodeAuditExport entries .csv maxRecords).body.toList =
      some (headerCells :: (entries.take (maxRecords.getD DEFAULT_EXPORT_MAX_RECORDS)).map
        AuditLogEntry.exportedCells) := by
  rw [toList_body]
  refine Csv.read_file fun cells hcells => ?_
  rcases List.mem_cons.mp hcells with rfl | hcells
  · simp [headerCells]
  · obtain ⟨entry, -, rfl⟩ := List.mem_map.mp hcells
    simp [AuditLogEntry.exportedCells, LogFields.cells]

/-- Read by the rules of the format, an export is its header and, in order, a record for each of
the first `maxRecords` entries, and it tells whether entries were left out.  The route's encoder
agrees with that of the export on every entry whose hashes begin with neither a tab nor a carriage
return. -/
theorem csv_export (entries : List AuditLogEntry) (maxRecords : Option ℕ) :
    (∃ records, Csv.read (encodeAuditExport entries .csv maxRecords).body.toList =
        some (headerCells :: records) ∧
      List.Forall₂ IsRecordOf (entries.take (maxRecords.getD DEFAULT_EXPORT_MAX_RECORDS))
        records) ∧
    (encodeAuditExport entries .csv maxRecords).truncated =
      decide (maxRecords.getD DEFAULT_EXPORT_MAX_RECORDS < entries.length) ∧
    ∀ entry ∈ entries, BeginsPlain entry.previousHash → BeginsPlain entry.hash →
      entryToCsvRow entry = csvRow entry := by
  refine ⟨⟨_, read_body entries maxRecords, ?_⟩, ?_, fun entry _ => entryToCsvRow_eq⟩
  · rw [List.forall₂_map_right_iff]
    exact List.forall₂_same.mpr fun entry _ => isRecordOf_exportedCells entry
  · simp [encodeAuditExport, exportLoop_eq]

/-- An entry whose hash is no digest. -/
def rawHashEntry : AuditLogEntry where
  sequence := 1
  action := "a"
  actorId := none
  subjectId := none
  metadata := OrderedMap.empty
  occurredAt := sampleTime
  previousHash := ""
  id := "e1"
  hash := "\t\n"

/-- The default cap leaves out the last of 10001 entries, and a hash that is no digest brings a line
break into its cell and is written differently by the two encoders. -/
theorem csv_export_caps_and_copies :
    (∃ records, Csv.read
        (encodeAuditExport (List.replicate 10001 rawHashEntry) .csv none).body.toList =
          some (headerCells :: records) ∧
      records.length ≠ 10001 ∧ ∃ cells ∈ records, ∃ cell ∈ cells, '\n' ∈ cell) ∧
    entryToCsvRow rawHashEntry ≠ csvRow rawHashEntry := by
  have hhash : (neutralizeFormulaPrefix rawHashEntry.hash).toList = ['\'', '\t', '\n'] := by
    simp [neutralizeFormulaPrefix, rawHashEntry, isFormulaPrefix]
  have hcell : ['\'', '\t', '\n'] ∈ rawHashEntry.exportedCells := by
    rw [← hhash]
    simp [AuditLogEntry.exportedCells, LogFields.cells, AuditLogEntry.toLogFields]
  have htake : (List.replicate 10001 rawHashEntry).take DEFAULT_EXPORT_MAX_RECORDS =
      List.replicate 10000 rawHashEntry := List.take_replicate
  have hread := read_body (List.replicate 10001 rawHashEntry) none
  rw [Option.getD_none, htake, List.map_replicate] at hread
  refine ⟨⟨_, hread, ?_, rawHashEntry.exportedCells, ?_, _, hcell, by simp⟩, fun hrow => ?_⟩
  · rw [List.length_replicate]
    decide
  · exact List.mem_replicate.mpr ⟨by decide, rfl⟩
  · have hlists := congrArg String.toList hrow
    rw [toList_entryToCsvRow, toList_csvRow] at hlists
    have hcells := Csv.record_inj (by simp [LogFields.cells])
      (by simp [AuditLogEntry.exportedCells, LogFields.cells]) hlists
    have hroute : (markForRoute rawHashEntry.hash).toList = ['\t', '\n'] := by
      simp [markForRoute, rawHashEntry]
    have hseventh := congrArg (fun cells : List (List Char) => cells[6]?) hcells
    simp only [AuditLogEntry.exportedCells, LogFields.cells, AuditLogEntry.toLogFields,
      List.map_cons, List.getElem?_cons_succ, List.getElem?_cons_zero, hroute, hhash,
      Option.some.injEq] at hseventh
    simp at hseventh

end Verixa
