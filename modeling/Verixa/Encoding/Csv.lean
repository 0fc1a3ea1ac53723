import Mathlib.Data.List.Flatten
import Mathlib.Data.List.Basic

/-!
# Comma-separated values

Files of records of cells in the format of RFC 4180: cells are separated by commas, records end
with a line break, and a cell that contains a quote, a comma or a part of a line break stands
between quotes, its own quotes doubled.

`read` reads a file character by character.  What `file` writes is read back as the records that
were written (`read_file`), as long as every record has a cell.
-/

namespace Encoding.Csv

/-! ## Writing -/

/-- The characters that a cell can only hold between quotes. -/
def isSpecial (c : Char) : Bool := c == '"' || c == ',' || c == '\r' || c == '\n'

/-- Double the quotes. -/
def doubleQuotes (text : List Char) : List Char :=
  text.flatMap fun c => if c = '"' then ['"', '"'] else [c]

/-- A cell, between quotes if it has to be. -/
def cell (text : List Char) : List Char :=
  if text.any isSpecial then '"' :: doubleQuotes text ++ ['"'] else text

/-- A record. -/
def record (cells : List (List Char)) : List Char := [','].intercalate (cells.map cell)

/-- The line break behind a record. -/
def lineBreak : List Char := ['\r', '\n']

/-- A file. -/
def file (records : List (List (List Char))) : List Char :=
  records.flatMap fun cells => record cells ++ lineBreak

/-! ## Reading -/

/-- Where a reader is: before a cell, in a cell without quotes, in one with quotes, behind a quote
in such a cell, or within a line break. -/
inductive Mode where
  | start
  | bare
  | quoted
  | closed
  | breaking
  deriving DecidableEq

/-- Read on in a mode, with what has been read of the cell and the cells of the record before it.
There is no result when the text is no file. -/
def readFrom : Mode → List Char → List (List Char) → List Char → Option (List (List (List Char)))
  | .start, text, cells, [] => if cells = [] then some [] else some [cells ++ [text]]
  | .bare, text, cells, [] => some [cells ++ [text]]
  | .closed, text, cells, [] => some [cells ++ [text]]
  | .quoted, _, _, [] => none
  | .breaking, _, _, [] => none
  | .quoted, text, cells, c :: rest =>
    if c = '"' then readFrom .closed text cells rest
    else readFrom .quoted (text ++ [c]) cells rest
  | .breaking, text, cells, c :: rest =>
    if c = '\n' then (readFrom .start [] [] rest).map fun records => (cells ++ [text]) :: records
    else none
  | .start, text, cells, c :: rest =>
    if c = '"' then readFrom .quoted text cells rest
    else if c = ',' then readFrom .start [] (cells ++ [text]) rest
    else if c = '\r' then readFrom .breaking text cells rest
    else if c = '\n' then none
    else readFrom .bare (text ++ [c]) cells rest
  | .bare, text, cells, c :: rest =>
    if c = '"' then none
    else if c = ',' then readFrom .start [] (cells ++ [text]) rest
    else if c = '\r' then readFrom .breaking text cells rest
    else if c = '\n' then none
    else readFrom .bare (text ++ [c]) cells rest
  | .closed, text, cells, c :: rest =>
    if c = '"' then readFrom .quoted (text ++ [c]) cells rest
    else if c = ',' then readFrom .start [] (cells ++ [text]) rest
    else if c = '\r' then readFrom .breaking text cells rest
    else none

/-- The records of a file. -/
def read (text : List Char) : Option (List (List (List Char))) := readFrom .start [] [] text

example : read ['a', ',', '"', '"', '"', '"', '\r', '\n'] = some [[['a'], ['"']]] := by
  rw [read, readFrom]
  rfl

/-! ## Reading what was written -/

variable {text rest : List Char} {cells : List (List Char)}

/-- A text without special characters is read as it is. -/
theorem readFrom_bare (before : List Char) (h : ∀ c ∈ text, isSpecial c = false) :
    readFrom .bare before cells (text ++ rest) = readFrom .bare (before ++ text) cells rest := by
  induction text generalizing before with
  | nil => simp
  | cons c text ih =>
    have hc : isSpecial c = false := h c List.mem_cons_self
    simp only [isSpecial, Bool.or_eq_false_iff, beq_eq_false_iff_ne, ne_eq] at hc
    obtain ⟨⟨⟨hquote, hcomma⟩, hreturn⟩, hfeed⟩ := hc
    rw [List.cons_append, readFrom, if_neg hquote, if_neg hcomma, if_neg hreturn, if_neg hfeed,
      ih _ fun d hd => h d (List.mem_cons_of_mem _ hd)]
    simp

/-- Doubled quotes are read as single ones. -/
theorem readFrom_quoted (before : List Char) :
    readFrom .quoted before cells (doubleQuotes text ++ rest) =
      readFrom .quoted (before ++ text) cells rest := by
  induction text generalizing before with
  | nil => simp [doubleQuotes]
  | cons c text ih =>
    have hrest : ∀ before', readFrom .quoted before' cells
        (text.flatMap (fun d => if d = '"' then ['"', '"'] else [d]) ++ rest) =
          readFrom .quoted (before' ++ text) cells rest := ih
    by_cases hc : c = '"'
    · subst hc
      simp [doubleQuotes, readFrom, hrest]
    · simp [doubleQuotes, readFrom, hc, hrest]

/-- A cell is read up to what ends it. -/
theorem readFrom_cell (text : List Char) (cells : List (List Char)) (rest : List Char) :
    readFrom .start [] cells (cell text ++ rest) = readFrom .closed text cells rest ∨
      readFrom .start [] cells (cell text ++ rest) = readFrom .bare text cells rest ∨
      text = [] ∧ cell text = [] := by
  by_cases hspecial : text.any isSpecial = true
  · left
    have hcell : cell text ++ rest = '"' :: (doubleQuotes text ++ '"' :: rest) := by
      simp [cell, hspecial]
    rw [hcell, readFrom, if_pos rfl, readFrom_quoted]
    simp [readFrom]
  · have hcell : cell text = text := by rw [cell, if_neg hspecial]
    cases text with
    | nil => exact .inr (.inr ⟨rfl, hcell⟩)
    | cons c text =>
      right
      left
      have hnone : ∀ d ∈ c :: text, isSpecial d = false := by
        simpa using hspecial
      have hc := hnone c List.mem_cons_self
      simp only [isSpecial, Bool.or_eq_false_iff, beq_eq_false_iff_ne, ne_eq] at hc
      obtain ⟨⟨⟨hquote, hcomma⟩, hreturn⟩, hfeed⟩ := hc
      rw [hcell, List.cons_append, readFrom, if_neg hquote, if_neg hcomma, if_neg hreturn,
        if_neg hfeed, readFrom_bare _ fun d hd => hnone d (List.mem_cons_of_mem _ hd)]
      rfl

/-- A cell before a comma. -/
theorem readFrom_cell_comma :
    readFrom .start [] cells (cell text ++ ',' :: rest) =
      readFrom .start [] (cells ++ [text]) rest := by
  rcases readFrom_cell text cells (',' :: rest) with hclosed | hbare | ⟨rfl, hempty⟩
  · rw [hclosed]
    simp [readFrom]
  · rw [hbare]
    simp [readFrom]
  · rw [hempty]
    simp [readFrom]

/-- A cell before a line break. -/
theorem readFrom_cell_lineBreak :
    readFrom .start [] cells (cell text ++ (lineBreak ++ rest)) =
      (readFrom .start [] [] rest).map fun records => (cells ++ [text]) :: records := by
  rcases readFrom_cell text cells (lineBreak ++ rest) with hclosed | hbare | ⟨rfl, hempty⟩
  · rw [hclosed]
    simp [lineBreak, readFrom]
  · rw [hbare]
    simp [lineBreak, readFrom]
  · rw [hempty]
    simp [lineBreak, readFrom]

/-- A record before its line break. -/
theorem readFrom_record {record' : List (List Char)} (hne : record' ≠ []) :
    readFrom .start [] cells (record record' ++ (lineBreak ++ rest)) =
      (readFrom .start [] [] rest).map fun records => (cells ++ record') :: records := by
  induction record' generalizing cells with
  | nil => exact absurd rfl hne
  | cons first others ih =>
    cases others with
    | nil =>
      rw [record, List.map_cons, List.map_nil, List.intercalate_singleton]
      exact readFrom_cell_lineBreak
    | cons second others =>
      have hrecord : record (first :: second :: others) =
          cell first ++ ',' :: record (second :: others) := by
        simp [record, List.intercalate_cons_cons]
      rw [hrecord, List.append_assoc, List.cons_append, readFrom_cell_comma,
        ih (List.cons_ne_nil _ _)]
      simp

/-- A file is read as the records that were written. -/
theorem read_file {records : List (List (List Char))} (h : ∀ cells ∈ records, cells ≠ []) :
    read (file records) = some records := by
  induction records with
  | nil => rfl
  | cons cells records ih =>
    have hrest := ih fun cells' hcells' => h cells' (List.mem_cons_of_mem _ hcells')
    rw [file, List.flatMap_cons, List.append_assoc, read,
      readFrom_record (h cells List.mem_cons_self)]
    change Option.map _ (read (file records)) = _
    rw [hrest]
    simp

/-- Different records are written differently. -/
theorem record_inj {cells cells' : List (List Char)} (hne : cells ≠ []) (hne' : cells' ≠ [])
    (h : record cells = record cells') : cells = cells' := by
  have hread : read (file [cells]) = read (file [cells']) := by
    rw [file, file, List.flatMap_singleton, List.flatMap_singleton, h]
  rw [read_file (by simpa using hne), read_file (by simpa using hne')] at hread
  simpa using hread

end Encoding.Csv
