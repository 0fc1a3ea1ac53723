import Verixa.Audit.AuditLogEntry
import Verixa.Encoding.Csv

/-!
# The encoding of an audit export

An export writes one row for each entry, as JSON or as comma-separated values.  A cell of the
latter goes through three layers: `toLogFields` escapes the control characters of everything that
comes from outside, `neutralizeFormulaPrefix` puts an apostrophe before what a spreadsheet would
take for a formula, and the cell is quoted if it has to be.  The route of the API has an encoder of
its own.

Read by the rules of the format, an export is its header and one record of eight cells for each of
the first `maxRecords` entries (`AuditExport`).
-/

namespace Verixa

open Encoding

/-! ## JSON texts -/

/-- Four hexadecimal digits behind `\\u`. -/
def unicodeEscape (c : Char) : String :=
  "\\u" ++ String.ofList ((Nat.toDigits 16 c.toNat).leftpad 4 '0')

/-- A character within a text that `JSON.stringify` writes. -/
def jsonCharacter (c : Char) : String :=
  if c = '"' then "\\\""
  else if c = '\\' then "\\\\"
  else if c.toNat = 0x08 then "\\b"
  else if c.toNat = 0x0c then "\\f"
  else if c = '\n' then "\\n"
  else if c = '\r' then "\\r"
  else if c = '\t' then "\\t"
  else if c.toNat < 0x20 then unicodeEscape c
  else String.singleton c

/-- `JSON.stringify(text)`. -/
def jsonText (text : String) : String :=
  "\"" ++ String.join (text.toList.map jsonCharacter) ++ "\""

/-- `JSON.stringify` of an object, given its fields in order with the texts of their values. -/
def jsonObject (fields : List (String × String)) : String :=
  "\x7b" ++ String.intercalate "," (fields.map fun field => jsonText field.1 ++ ":" ++ field.2) ++
    "\x7d"

/-- `JSON.stringify(record)`. -/
def jsonRecord (record : StringRecord) : String :=
  jsonObject (record.entries.map fun field => (field.1, jsonText field.2))

/-- The line terminators that JSON leaves as they are. -/
def isRawLineTerminator (c : Char) : Bool :=
  c.toNat == 0x85 || c.toNat == 0x2028 || c.toNat == 0x2029

/-- Escapes line terminators that a JSON encoder leaves raw. -/
def escapeJsonLineTerminators (value : String) : String :=
  String.join (value.toList.map fun c =>
    if isRawLineTerminator c then unicodeEscape c else String.singleton c)

/-! ## Cells -/

/-- The characters that begin what a spreadsheet takes for a formula. -/
def isFormulaPrefix (c : Char) : Bool :=
  c == '=' || c == '+' || c == '-' || c == '@' || c == '\t' || c == '\r'

/-- Neutralizes a value destined for a spreadsheet cell. -/
def neutralizeFormulaPrefix (value : String) : String :=
  if value.toList.head?.any isFormulaPrefix then "'" ++ value else value

/-- Quote a value that contains a quote, a comma or a line break. -/
def quoteCell (value : String) : String :=
  if value.toList.any Csv.isSpecial then
    "\"" ++
      String.join (value.toList.map fun c => if c = '"' then "\"\"" else String.singleton c) ++
      "\""
  else value

/-- Encodes one cell. -/
def csvCell (value : String) : String := quoteCell (neutralizeFormulaPrefix value)

/-! ## Rows -/

/-- The texts of an entry's fields, in the order of the columns. -/
structure LogFields where
  sequence : String
  action : String
  actorId : String
  subjectId : String
  occurredAt : String
  previousHash : String
  hash : String
  metadata : String
  deriving DecidableEq

/-- The projection of an entry that is written line by line. -/
def AuditLogEntry.toLogFields (entry : AuditLogEntry) : LogFields where
  sequence := toString entry.sequence
  action := escapeForText entry.action
  actorId := escapeForText (entry.actorId.getD "")
  subjectId := escapeForText (entry.subjectId.getD "")
  occurredAt := entry.occurredAt.toISOString
  previousHash := entry.previousHash
  hash := entry.hash
  metadata := escapeJsonLineTerminators (jsonRecord entry.metadata)

/-- The fields in the order of the columns. -/
def LogFields.cells (fields : LogFields) : List String :=
  [fields.sequence, fields.action, fields.actorId, fields.subjectId, fields.occurredAt,
    fields.previousHash, fields.hash, fields.metadata]

/-- A row of comma-separated values. -/
def csvRow (entry : AuditLogEntry) : String :=
  String.intercalate "," (entry.toLogFields.cells.map csvCell)

/-- A row of JSON. -/
def jsonlRow (entry : AuditLogEntry) : String :=
  jsonObject [("sequence", toString entry.sequence), ("action", jsonText entry.action),
    ("actorId", (entry.actorId.map jsonText).getD "null"),
    ("subjectId", (entry.subjectId.map jsonText).getD "null"),
    ("occurredAt", jsonText entry.occurredAt.toISOString),
    ("previousHash", jsonText entry.previousHash), ("hash", jsonText entry.hash),
    ("metadata", jsonRecord entry.metadata)]

/-- The apostrophe of the route's encoder, which it puts before fewer characters. -/
def markForRoute (value : String) : String :=
  if value.toList.head?.any fun c => c == '+' || c == '=' || c == '@' || c == '-' then
    "'" ++ value
  else value

/-- The route's encoder of a cell. -/
def escapeCsvCell (value : String) : String := quoteCell (markForRoute value)

/-- The route's encoder of a row. -/
def entryToCsvRow (entry : AuditLogEntry) : String :=
  String.intercalate "," (entry.toLogFields.cells.map escapeCsvCell)

/-! ## The export -/

/-- What an export is written as. -/
inductive AuditExportFormat where
  | csv
  | jsonl
  deriving DecidableEq

/-- The columns of a CSV export, in order. -/
def AUDIT_EXPORT_HEADER : String :=
  "sequence,action,actor_id,subject_id,occurred_at,previous_hash,hash,metadata"

/-- How many entries one export may produce. -/
def DEFAULT_EXPORT_MAX_RECORDS : ℕ := 10000

/-- An export. -/
structure ExportAuditEventsResult where
  format : AuditExportFormat
  body : String
  recordCount : ℕ
  truncated : Bool
  deriving DecidableEq

/-- The loop over the entries: the rows after those there are, and whether the cap was reached. -/
def exportLoop (row : AuditLogEntry → String) (maxRecords : ℕ) :
    List AuditLogEntry → List String → List String × Bool
  | [], rows => (rows, false)
  | entry :: entries, rows =>
    if maxRecords ≤ rows.length then (rows, true)
    else exportLoop row maxRecords entries (rows ++ [row entry])

/-- Encodes entries into one export body, stopping at `maxRecords`. -/
def encodeAuditExport (entries : List AuditLogEntry) (format : AuditExportFormat)
    (maxRecords : Option ℕ) : ExportAuditEventsResult :=
  let row := match format with
    | .csv => csvRow
    | .jsonl => jsonlRow
  let written := exportLoop row (maxRecords.getD DEFAULT_EXPORT_MAX_RECORDS) entries []
  let body := match format with
    | .csv => AUDIT_EXPORT_HEADER ++ "\r\n" ++ String.join (written.1.map fun row => row ++ "\r\n")
    | .jsonl => String.join (written.1.map fun row => row ++ "\n")
  ⟨format, body, written.1.length, written.2⟩

end Verixa
