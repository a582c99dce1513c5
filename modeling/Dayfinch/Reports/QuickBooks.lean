/-
# Dayfinch.Reports.QuickBooks -- the time export for QuickBooks

`quickbooks_timer_iif` writes the grouped time rows as a table: lines ended by CRLF, fields separated by
TAB. A mapping that could break the table is refused, a note is rewritten until it cannot, and a row longer
than a day is written on several lines (`emitDurations` is the `while` loop). `readIif` reads a table back.

The normal form that `unicodedata.normalize` computes and the combining characters come from the Unicode
tables; they are the parameter `UnicodeData`, of which the proofs use that no decomposition contains a
control character.
-/
import Dayfinch.Library.Lines
import Dayfinch.Library.Text
import Dayfinch.Reports.NextDelivery
import Dayfinch.Schema

namespace Dayfinch

open Library (Ensures bind_eq_ok)
open Library.Text (truncate strip)
open Library.Calendar (monthOf)

/-! ## Texts -/

/-- `ord(character) < 32 or ord(character) == 127`. -/
def isControl (c : Char) : Bool := c.toNat < 32 || c.toNat == 127

/-- `character.isascii()`. -/
def isAscii (c : Char) : Bool := c.toNat < 128

/-- `value.startswith(FORMULA_PREFIXES)`. -/
def startsFormula (value : String) : Bool :=
  match value.toList with
  | [] => false
  | c :: _ => c == '=' || c == '+' || c == '-' || c == '@'

/-- What `unicodedata` says. -/
structure UnicodeData where
  nfkd : List Char → List Char
  combining : Char → Bool

/-- A text without control characters has none in its normal form. -/
structure UnicodeData.Documented (unicode : UnicodeData) : Prop where
  nfkd_controls : ∀ note : List Char, (∀ c ∈ note, isControl c = false) →
    ∀ c ∈ unicode.nfkd note, isControl c = false

/-- `note.replace(c + d, replacement)`. -/
def replacePair (c d : Char) (replacement : List Char) : List Char → List Char
  | [] => []
  | [x] => [x]
  | x :: y :: rest =>
    if x = c ∧ y = d then replacement ++ replacePair c d replacement rest
    else x :: replacePair c d replacement (y :: rest)

/-- `note.replace(c, replacement)`. -/
def replaceChar (c : Char) (replacement note : List Char) : List Char :=
  note.flatMap fun x => if x = c then replacement else [x]

/-- `validate_mapping(value, label, required=.., max_length=..)`. -/
def validateMapping (value label : String) (required : Bool) (maxLength : Nat) : Except Error String := do
  let cleaned := strip value
  raiseIf (required = true ∧ cleaned = "") s!"{label} is required"
  raiseIf (maxLength < cleaned.length) s!"{label} must contain at most {maxLength} characters"
  raiseIf (cleaned.toList.any isControl = true) s!"{label} cannot contain control characters"
  raiseIf (cleaned.toList.all isAscii = false) s!"{label} must use ASCII characters for QuickBooks IIF"
  raiseIf (startsFormula cleaned = true) s!"{label} cannot begin with a spreadsheet formula character"
  pure cleaned

/-- `_safe_note(value)`. -/
def safeNote (unicode : UnicodeData) (value : Option String) : String :=
  let newline := ['/', 'n']
  let note := (value.getD "").toList
  let note := replaceChar '\r' newline (replacePair '\r' '\n' newline note)
  let note := replaceChar '\t' [' '] (replaceChar '\n' newline note)
  let note := note.map fun c => if isControl c then ' ' else c
  let note := (unicode.nfkd note).filter fun c => !unicode.combining c
  let note := note.map fun c => if isAscii c then c else '?'
  let note := truncate 1000 (String.ofList note)
  if startsFormula note then truncate 1000 ("'" ++ note) else note

/-- `f"{n:02d}"`. -/
def twoDigits (n : Nat) : String := String.leftpad 2 '0' (toString n)

/-- `day.strftime("%m/%d/")`. -/
def monthAndDay (day : Int) : String :=
  twoDigits (monthOf day % 12 + 1).toNat ++ "/" ++ twoDigits (dayOfMonth day).toNat ++ "/"

/-- `f"{hours}:{minute:02d}"` of a number of minutes. -/
def durationText (minutes : Nat) : String := toString (minutes / 60) ++ ":" ++ twoDigits (minutes % 60)

/-! ## Rows -/

/-- A row of `quickbooks_time_rows`. -/
structure QuickBooksRow where
  workDate : Int
  note : Option String
  quickbooksName : Option String
  quickbooksCustomerJob : Option String
  quickbooksClass : Option String
  quickbooksBillable : Bool
  quickbooksServiceItem : Option String
  seconds : Int
  deriving DecidableEq, Repr

/-- What `_row_values` returns. -/
structure RowValues where
  workDate : String
  job : String
  employee : String
  serviceItem : String
  className : String
  note : String
  billable : Nat
  roundedMinutes : Nat
  deriving DecidableEq, Repr

/-- `_row_values(row, default_service_item)`. -/
def rowValues (unicode : UnicodeData) (row : QuickBooksRow) (defaultServiceItem : String) :
    Except Error RowValues := do
  let employee ← validateMapping (row.quickbooksName.getD "") "QuickBooks employee name" true 209
  let job ← validateMapping (row.quickbooksCustomerJob.getD "") "QuickBooks customer/job" false 209
  let rowItem := row.quickbooksServiceItem.getD ""
  let serviceItem ← validateMapping (if rowItem = "" then defaultServiceItem else rowItem)
    "QuickBooks service item" true 209
  let className ← validateMapping (row.quickbooksClass.getD "") "QuickBooks class" false 159
  raiseIf (row.quickbooksBillable = true ∧ job = "")
    "Billable time requires a QuickBooks customer/job mapping"
  raiseIf (row.seconds < 0) "A time row has a negative duration"
  pure {
    workDate := monthAndDay row.workDate ++ twoDigits (monthOf row.workDate / 12 % 100).toNat
    job := job
    employee := employee
    serviceItem := serviceItem
    className := className
    note := safeNote unicode row.note
    billable := if row.quickbooksBillable then 1 else 0
    roundedMinutes := ((row.seconds + 30) / 60).toNat }

/-- The line of a duration. -/
def RowValues.activity (values : RowValues) (duration : Nat) : List String :=
  ["TIMEACT", values.workDate, values.job, values.employee, values.serviceItem, "",
    durationText duration, values.className, values.note, toString values.billable]

/-! ## The export -/

/-- `MAX_IIF_ROWS`. -/
def maxIifRows : Nat := 10000

/-- `MAX_DURATION_MINUTES`. -/
def maxDurationMinutes : Nat := 23 * 60 + 59

/-- The variables of the export's loop. -/
structure IifTotals where
  output : List (List String)
  sourceSeconds : Int := 0
  exportedMinutes : Nat := 0
  skippedSeconds : Int := 0
  rowCount : Nat := 0
  deriving DecidableEq, Repr

/-- `QuickBooksIIFExport`. -/
structure QuickBooksIIFExport where
  data : List UInt8
  rowCount : Nat
  sourceSeconds : Int
  exportedMinutes : Nat
  skippedSeconds : Int
  deriving DecidableEq, Repr

/-- One line more, of this duration. -/
def IifTotals.emit (totals : IifTotals) (values : RowValues) (duration : Nat) : IifTotals :=
  { totals with
    output := totals.output ++ [values.activity duration]
    exportedMinutes := totals.exportedMinutes + duration
    rowCount := totals.rowCount + 1 }

/-- `while minutes: ..`. -/
def emitDurations (values : RowValues) (minutes : Nat) (totals : IifTotals) : Except Error IifTotals :=
  if minutes = 0 then pure totals
  else
    let duration := min minutes maxDurationMinutes
    let totals := totals.emit values duration
    if maxIifRows < totals.rowCount then
      .error (.valueError s!"QuickBooks exports are limited to {maxIifRows} rows")
    else emitDurations values (minutes - duration) totals
termination_by minutes
decreasing_by
  unfold maxDurationMinutes
  omega

/-- `for row in rows: ..`. -/
def exportRow (unicode : UnicodeData) (defaultItem : String) (totals : IifTotals) (row : QuickBooksRow) :
    Except Error IifTotals := do
  let values ← rowValues unicode row defaultItem
  let totals := { totals with sourceSeconds := totals.sourceSeconds + row.seconds }
  if values.roundedMinutes = 0 then
    pure { totals with skippedSeconds := totals.skippedSeconds + row.seconds }
  else emitDurations values values.roundedMinutes totals

/-- The lines before the first row. -/
def iifHeader (company companyTime : String) (observed : Int) : List (List String) :=
  [["!TIMERHDR", "VER", "REL", "COMPANYNAME", "IMPORTEDBEFORE", "FROMTIMER", "COMPANYCREATETIME"],
    ["TIMERHDR", "8", "0", company, "N", "Y", companyTime],
    ["!HDR", "PROD", "VER", "REL", "IIFVER", "DATE", "TIME", "ACCNTNT", "ACCNTNTSPLITTIME"],
    ["HDR", "Dayfinch Workforce Tracker", "Version 0.6.0", "Release 0", "1",
      monthAndDay (dateOf observed) ++ String.leftpad 4 '0' (toString (monthOf (dateOf observed) / 12).toNat),
      toString (observed.tdiv (seconds 1)), "N", "0"],
    ["!TIMEACT", "DATE", "JOB", "EMP", "ITEM", "PITEM", "DURATION", "PROJ", "NOTE", "BILLINGSTATUS"]]

/-- `payload.encode("ascii")`. -/
def encodeAscii (payload : String) : Except Error (List UInt8) := do
  raiseIf (payload.toList.all isAscii = false) "ordinal not in range(128)"
  pure (payload.toList.map fun c => UInt8.ofNat c.toNat)

/-- `quickbooks_timer_iif(..)`; `observed` is the instant of `generated_at`, or of the call. -/
def quickbooksTimerIif (unicode : UnicodeData) (companyName companyCreateTime defaultServiceItem : String)
    (rows : List QuickBooksRow) (observed : Int) : Except Error QuickBooksIIFExport := do
  let company ← validateMapping companyName "QuickBooks company name" true 255
  let companyTime := strip companyCreateTime
  raiseIf (companyTime = "" ∨ companyTime.toList.all Char.isDigit = false ∨ 20 < companyTime.length)
    "QuickBooks company creation time must be the numeric value exported by QuickBooks"
  let defaultItem ← validateMapping defaultServiceItem "Default QuickBooks service item" false 209
  let totals ← rows.foldlM (exportRow unicode defaultItem) { output := iifHeader company companyTime observed }
  let payload := "\r\n".intercalate (totals.output.map "\t".intercalate) ++ "\r\n"
  let data ← encodeAscii payload
  pure {
    data := data
    rowCount := totals.rowCount
    sourceSeconds := totals.sourceSeconds
    exportedMinutes := totals.exportedMinutes
    skippedSeconds := totals.skippedSeconds }

/-! ## Reading a table -/

/-- `data.decode("ascii")`, split at CRLF and at TAB. -/
def readIif (data : List UInt8) : List (List String) :=
  (Library.Lines.readTable '\r' '\n' '\t' (data.map fun b => Char.ofNat b.toNat)).map
    (List.map String.ofList)

/-- The minutes of `h:mm`. -/
def readDuration (field : String) : Option Nat :=
  match field.toList.splitOn ':' with
  | [hours, minutes] =>
    if hours.all Char.isDigit && minutes.all Char.isDigit then
      some (Nat.ofDigitChars 10 hours 0 * 60 + Nat.ofDigitChars 10 minutes 0)
    else none
  | _ => none

/-- `DURATION` of a line. -/
def lineMinutes (fields : List String) : Option Nat := fields[6]?.bind readDuration

end Dayfinch
